import CodeReview.Proofs.Disk.Store

/-!
# Which entries storing a text touches

A path leads to one place, whatever is on the disk (`Disk.target`), and past the places on the way
there (`Disk.way`).  Storing a text changes no entry but that of its target, and that only where it
succeeds; apart from that it makes directories on the way where nothing was
(`Disk.changed_of_store`).
-/

namespace CodeReview.Disk

variable {d d' : Disk} {here there place : Place} {parts : List String} {part path text : String}

/-! ### Where parts lead -/

/-- Where a part leads from a place. -/
def next (here : Place) (part : String) : Place :=
  if part = ".." then here.dropLast else here ++ [part]

/-- Where parts lead from a place, whatever is there. -/
def walk (here : Place) (parts : List String) : Place := parts.foldl next here

/-- The place that a path leads to. -/
def target (d : Disk) (path : String) : Place := walk (d.start path) (Path.parts path)

/-- The places from where a path starts up to the one above its target. -/
def way (d : Disk) (path : String) : List Place :=
  (Path.parts path).dropLast.inits.map (walk (d.start path))

/-- Parts lead from where the parts in front of them lead. -/
lemma walk_append (here : Place) (front parts : List String) :
    walk here (front ++ parts) = walk (walk here front) parts := List.foldl_append

/-- The places on the way are those to which the first parts lead, short of the last part. -/
lemma mem_way_iff : place ∈ d.way path ↔
    ∃ front, front <+: (Path.parts path).dropLast ∧ place = walk (d.start path) front := by
  simp only [way, List.mem_map, List.mem_inits, eq_comm]

/-- A step that succeeds goes where its part leads. -/
lemma next_of_step (h : step here part = .ok there) : there = next here part := by
  unfold step at h
  unfold next
  split_ifs at h ⊢
  · exact (Except.ok.inj h).symm
  · exact (Except.ok.inj h).symm

/-- Parts that can be entered lead where they say. -/
lemma walk_of_enter (h : d.enter here parts = .ok there) : there = walk here parts := by
  induction parts generalizing here with
  | nil => exact (Except.ok.inj h).symm
  | cons part rest ih =>
      rw [enter] at h
      split at h
      case h_1 => cases h
      case h_2 there' hstep =>
        rw [next_of_step hstep] at h
        split at h
        case h_1 => cases h
        case h_2 => cases h
        case h_3 => exact ih h

/-- A path that can be located is at its target. -/
lemma target_of_locate (h : d.locate path = .ok place) : place = d.target path := by
  unfold locate at h
  split_ifs at h
  unfold target
  split at h
  case h_1 hnone =>
    rw [List.getLast?_eq_none_iff.mp hnone]
    exact (Except.ok.inj h).symm
  case h_2 last hlast =>
    split at h
    case h_1 => cases h
    case h_2 above hway =>
      obtain ⟨front, hfront⟩ := List.getLast?_eq_some_iff.mp hlast
      rw [hfront, List.dropLast_concat] at hway
      rw [hfront, walk_append, ← walk_of_enter hway]
      exact next_of_step h

/-! ### What is made -/

/-- Nothing was at the place, and it is a directory now. -/
structure Made (d d' : Disk) (place : Place) : Prop where
  absent : d.get? place = none
  directory : d'.get? place = some .directory

/-- On a disk that only grows, what has changed at a place is that a directory was made there. -/
lemma Grows.made (h : d.Grows d') (hchanged : d'.get? place ≠ d.get? place) : Made d d' place := by
  obtain heq | ⟨habsent, hdirectory⟩ := h.entries place
  · exact absurd heq hchanged
  · exact ⟨habsent, hdirectory⟩

/-- Making a directory puts it where its parts lead, and changes nothing else. -/
lemma makeDirectory_eq_put (h : d.makeDirectory here parts = .ok d') :
    d' = d.put (walk here parts) .directory := by
  unfold makeDirectory at h
  split at h
  case h_1 => cases h
  case h_2 last hlast =>
    split at h
    case h_1 => cases h
    case h_2 above hway =>
      split at h
      case h_1 => cases h
      case h_2 place hstep =>
        split at h
        case h_1 => cases h
        case h_2 =>
          obtain ⟨front, rfl⟩ := List.getLast?_eq_some_iff.mp hlast
          rw [List.dropLast_concat] at hway
          rw [walk_append, ← walk_of_enter hway, ← Except.ok.inj h, next_of_step hstep]
          rfl

/-- One more directory changes no entry but its own. -/
lemma changed_of_makeDirectory (h : d.makeDirectory here parts = .ok d')
    (hchanged : d'.get? place ≠ d.get? place) : place = walk here parts := by
  rw [makeDirectory_eq_put h] at hchanged
  by_contra hne
  exact hchanged (get?_put_of_ne hne)

/-- Directories are made only where the parts lead past. -/
lemma changed_of_makeDirectories
    (h : (d.makeDirectories here parts).2.get? place ≠ d.get? place) :
    ∃ front, front <+: parts.reverse ∧ place = walk here front := by
  induction parts generalizing d with
  | nil => exact absurd rfl h
  | cons last above ih =>
      have hprefix : above.reverse <+: (last :: above).reverse := by simp
      have hself := List.prefix_refl (last :: above).reverse
      have habove : ∀ {d : Disk}, (d.makeDirectories here above).2.get? place ≠ d.get? place →
          ∃ front, front <+: (last :: above).reverse ∧ place = walk here front := by
        intro d hchanged
        obtain ⟨front, hfront, hplace⟩ := ih hchanged
        exact ⟨front, hfront.trans hprefix, hplace⟩
      rw [makeDirectories] at h
      cases hfirst : d.makeDirectory here (last :: above).reverse with
      | ok d₁ =>
          rw [hfirst] at h
          exact ⟨_, hself, changed_of_makeDirectory hfirst h⟩
      | error e =>
          rw [hfirst] at h
          cases e with
          | notFound =>
              dsimp only at h
              have hrest := @habove d
              generalize d.makeDirectories here above = outcome at h hrest
              obtain ⟨r, d₁⟩ := outcome
              cases r with
              | error e => exact hrest h
              | ok _ =>
                  cases hsecond : d₁.makeDirectory here (last :: above).reverse with
                  | ok d₂ =>
                      simp only [hsecond] at h
                      by_cases hlast : d₂.get? place = d₁.get? place
                      · exact hrest (hlast ▸ h)
                      · exact ⟨_, hself, changed_of_makeDirectory hsecond hlast⟩
                  | error e =>
                      simp only [hsecond] at h
                      split_ifs at h
                      · exact hrest h
                      · exact hrest h
          | _ =>
              dsimp only at h
              split_ifs at h
              · exact absurd rfl h
              · exact absurd rfl h

/-- The directories above a file are made on the way to it. -/
lemma made_of_makeParents (h : (d.makeParents path).2.get? place ≠ d.get? place) :
    place ∈ d.way path ∧ Made d (d.makeParents path).2 place := by
  refine ⟨?_, (d.makeParents_grows path).made h⟩
  unfold makeParents at h
  dsimp only at h
  split_ifs at h
  · exact absurd rfl h
  · exact absurd rfl h
  · exact absurd rfl h
  · obtain ⟨front, hfront, hplace⟩ := changed_of_makeDirectories h
    rw [List.reverse_reverse] at hfront
    exact mem_way_iff.mpr ⟨front, hfront, hplace⟩

/-! ### What is stored -/

/-- Where a text is stored, its parents were made and its path can be written then. -/
lemma writable_of_store (h : (d.store path text).1 = .ok ()) :
    (d.makeParents path).1 = .ok () ∧
      (d.makeParents path).2.writable path = .ok (d.target path) ∧
      (d.store path text).2 =
        (d.makeParents path).2.put (d.target path) (.file text.toUTF8) := by
  have hstart : (d.makeParents path).2.target path = d.target path := by
    rw [target, target, start, start, (d.makeParents_grows path).workingPlace]
  obtain ⟨place, hparents, hwritable, hstore⟩ | ⟨e, -, hstore⟩ := d.store_cases path text
  · rw [← hstart, ← target_of_locate (locate_of_writable hwritable).1, hstore]
    exact ⟨hparents, hwritable, rfl⟩
  · rw [hstore] at h
    cases h

/-- A text that is stored is what its target then holds. -/
lemma get?_target_of_store (h : (d.store path text).1 = .ok ()) :
    (d.store path text).2.get? (d.target path) = some (.file text.toUTF8) := by
  obtain ⟨-, hwritable, hput⟩ := writable_of_store h
  rw [hput, get?_put_self (ne_nil_of_get? (locate_of_writable hwritable).2.1)]

/-- **Storing a text changes its target, where it succeeds, and makes directories on the way.** -/
theorem changed_of_store (h : (d.store path text).2.get? place ≠ d.get? place) :
    ((d.store path text).1 = .ok () ∧ place = d.target path) ∨
      (place ∈ d.way path ∧ Made d (d.store path text).2 place) := by
  cases hresult : (d.store path text).1 with
  | error e =>
      rw [store_eq_makeParents hresult] at h ⊢
      exact .inr (made_of_makeParents h)
  | ok _ =>
      by_cases htarget : place = d.target path
      · exact .inl ⟨rfl, htarget⟩
      · obtain ⟨-, -, hput⟩ := writable_of_store hresult
        have hsame : (d.store path text).2.get? place = (d.makeParents path).2.get? place := by
          rw [hput, get?_put_of_ne htarget]
        rw [hsame] at h
        obtain ⟨hway, hmade⟩ := made_of_makeParents h
        exact .inr ⟨hway, hmade.absent, hsame.trans hmade.directory⟩

/-- No file changes but the one that the text is stored in. -/
lemma fileAt?_of_store (h : place ≠ d.target path) :
    (d.store path text).2.fileAt? place = d.fileAt? place := by
  by_cases hsame : (d.store path text).2.get? place = d.get? place
  · rw [fileAt?, hsame, fileAt?]
  · obtain ⟨-, htarget⟩ | ⟨-, hmade⟩ := changed_of_store hsame
    · exact absurd htarget h
    · rw [fileAt?, hmade.directory, fileAt?, hmade.absent]

/-- Reading a text from the place of a file. -/
lemma readText_eq_iff (hplace : d.locate path = .ok place)
    (hnames : Path.namesDirectory path = false) :
    d.readText path = .ok text ↔ d.fileAt? place = some text.toUTF8 := by
  unfold readText readBytes find fileAt?
  simp only [hplace]
  cases d.get? place with
  | none => simp
  | some entry =>
      cases entry with
      | directory => simp
      | file c =>
          simp only [hnames, Bool.false_eq_true, if_false, Option.some.injEq]
          cases htext : String.fromUTF8? c with
          | none =>
              refine iff_of_false nofun ?_
              rintro rfl
              rw [Text.fromUTF8?_toUTF8] at htext
              cases htext
          | some text' =>
              rw [← Text.toUTF8_of_fromUTF8? htext, Text.toUTF8_inj]
              simp

/-- What a path finds is at its target, and it is a directory if the path names one. -/
lemma get?_target_of_find {entry : Entry} (h : d.find path = .ok entry) :
    d.get? (d.target path) = some entry ∧
      (Path.namesDirectory path = true → entry = .directory) := by
  unfold find at h
  cases hplace : d.locate path with
  | error e => simp [hplace] at h
  | ok place =>
      rw [← target_of_locate hplace]
      cases hentry : d.get? place with
      | none => simp [hplace, hentry] at h
      | some found =>
          cases found with
          | directory =>
              simp only [hplace, hentry, Except.ok.injEq] at h
              exact ⟨congrArg some h, fun _ => h.symm⟩
          | file c =>
              simp only [hplace, hentry] at h
              split_ifs at h with hnames
              cases h
              exact ⟨rfl, fun hnamed => absurd hnamed hnames⟩

/-- Where a path leads to nothing, nothing is there. -/
lemma exists?_of_target (h : d.get? (d.target path) = none) : d.exists? path = false := by
  unfold exists?
  cases hfind : d.find path with
  | error e => rfl
  | ok entry => cases h.symm.trans (get?_target_of_find hfind).1

/-- Where a path leads to no directory, none is there, -/
lemma isDirectory_of_target (h : d.get? (d.target path) ≠ some .directory) :
    d.isDirectory path = false := by
  unfold isDirectory
  cases hfind : d.find path with
  | error e => rfl
  | ok entry =>
      cases entry with
      | file c => rfl
      | directory => exact absurd (get?_target_of_find hfind).1 h

/-- and nothing at all if the path names a directory. -/
lemma exists?_of_namesDirectory (hnames : Path.namesDirectory path = true)
    (h : d.get? (d.target path) ≠ some .directory) : d.exists? path = false := by
  unfold exists?
  cases hfind : d.find path with
  | error e => rfl
  | ok entry =>
      obtain ⟨hentry, hnamed⟩ := get?_target_of_find hfind
      exact absurd (hentry.trans (congrArg some (hnamed hnames))) h

/-! ### What lasts -/

/-- A path is that of a directory where it leads to one. -/
lemma isDirectory_iff : d.isDirectory path = true ↔
    ∃ place, d.locate path = .ok place ∧ d.get? place = some .directory := by
  unfold isDirectory find
  cases d.locate path with
  | error e => simp
  | ok place =>
      simp only [Except.ok.injEq, exists_eq_left']
      cases d.get? place with
      | none => simp
      | some entry =>
          cases entry with
          | directory => simp
          | file c => by_cases hnames : Path.namesDirectory path = true <;> simp [hnames]

/-- Directories stay directories, and paths start from where they did. -/
structure KeepsDirectories (d d' : Disk) : Prop where
  workingPlace : d'.workingPlace = d.workingPlace
  directory : ∀ place, d.get? place = some .directory → d'.get? place = some .directory

namespace KeepsDirectories

/-- A disk keeps its own directories. -/
lemma refl (d : Disk) : d.KeepsDirectories d := ⟨rfl, fun _ h => h⟩

/-- What keeps directories twice keeps them. -/
lemma trans {d₁ d₂ d₃ : Disk} (h : d₁.KeepsDirectories d₂) (h' : d₂.KeepsDirectories d₃) :
    d₁.KeepsDirectories d₃ :=
  ⟨h'.workingPlace.trans h.workingPlace, fun place hplace => h'.directory place
    (h.directory place hplace)⟩

/-- On a disk that keeps its directories, paths have the targets that they had. -/
lemma target (h : d.KeepsDirectories d') (path : String) : d'.target path = d.target path := by
  rw [Disk.target, Disk.target, start, start, h.workingPlace]

/-- What a path leads to, it still leads to. -/
lemma locate (h : d.KeepsDirectories d') (hplace : d.locate path = .ok place) :
    d'.locate path = .ok place := locate_of_directories h.directory h.workingPlace hplace

/-- On a disk that keeps its directories, the path of a directory is still that of one. -/
lemma isDirectory (h : d.KeepsDirectories d') (hpath : d.isDirectory path = true) :
    d'.isDirectory path = true := by
  obtain ⟨place, hplace, hentry⟩ := isDirectory_iff.mp hpath
  exact isDirectory_iff.mpr ⟨place, h.locate hplace, h.directory place hentry⟩

end KeepsDirectories

/-- Storing a text keeps all directories. -/
lemma store_keepsDirectories (d : Disk) (path text : String) :
    d.KeepsDirectories (d.store path text).2 := by
  have hgrows := d.makeParents_grows path
  have hparents : d.KeepsDirectories (d.makeParents path).2 := by
    refine ⟨hgrows.workingPlace, fun place hplace => ?_⟩
    obtain hsame | ⟨hnone, -⟩ := hgrows.entries place
    · rw [hsame, hplace]
    · rw [hplace] at hnone
      cases hnone
  cases hresult : (d.store path text).1 with
  | error e =>
      rw [store_eq_makeParents hresult]
      exact hparents
  | ok _ =>
      obtain ⟨-, hwritable, hput⟩ := writable_of_store hresult
      obtain ⟨-, hnot, -⟩ := locate_of_writable hwritable
      rw [hput]
      refine hparents.trans ⟨rfl, fun place hplace => ?_⟩
      have hne : place ≠ d.target path := by
        rintro rfl
        exact hnot hplace
      rw [get?_put_of_ne hne, hplace]

end CodeReview.Disk

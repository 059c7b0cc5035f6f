import CodeReview.Proofs.Disk.Footprint
import CodeReview.Proofs.Text.Cut

/-!
# Where a file can be stored

Once the directories above a path are made, the way to them is free (`Disk.enter_of_makeParents`).
Behind a free way a path leads to its target if it names a file (`Disk.locate_of_enter`), and
whether a text can be stored there is a matter of the path alone: it has to name a file
(`Path.NamesFile`), and making the directories must not have made one at the path itself, as it does
for `a/../a` (`Disk.store_ok_iff`).
-/

namespace CodeReview

open CodeReview.Text

/-! ### Paths that name files -/

namespace Path

variable {path : String}

/-- A path names a file: it is not too long and holds no NUL, and it ends in a name that is not too
long either. -/
structure NamesFile (path : String) : Prop where
  noNul : '\x00' ∉ path.toList
  short : path.utf8ByteSize < Disk.maxPath
  noDirectory : namesDirectory path = false
  shortName : ∀ name ∈ fileName? path, name.utf8ByteSize ≤ Disk.maxName

instance (path : String) : Decidable (NamesFile path) :=
  decidable_of_iff ('\x00' ∉ path.toList ∧ path.utf8ByteSize < Disk.maxPath ∧
      namesDirectory path = false ∧ ∀ name ∈ fileName? path, name.utf8ByteSize ≤ Disk.maxName)
    ⟨fun ⟨hnul, hshort, hdir, hname⟩ => ⟨hnul, hshort, hdir, hname⟩,
      fun ⟨hnul, hshort, hdir, hname⟩ => ⟨hnul, hshort, hdir, hname⟩⟩

/-- A path that names a file has no NUL. -/
lemma NamesFile.contains_nul (h : NamesFile path) : path.contains '\x00' = false := by
  simp [String.contains_char_eq, h.noNul]

/-- A path that does not name a directory has characters. -/
lemma ne_empty_of_namesDirectory (h : namesDirectory path = false) : path ≠ "" := by
  rintro rfl
  exact absurd h (by decide)

/-- A path that does not name a directory does not end in a dot that stands for one. -/
lemma endsInDot_of_namesDirectory (h : namesDirectory path = false) : endsInDot path = false := by
  simp only [namesDirectory, Bool.or_eq_false_iff] at h
  exact h.1.2

/-- What stands behind the last slash of a path that names no directory is its last part. -/
lemma getLast?_parts_eq (h : namesDirectory path = false) :
    (parts path).getLast? = some (String.ofList (lastPart (· == '/') path.toList)) := by
  simp only [namesDirectory, Bool.or_eq_false_iff] at h
  have hlast := getLast?_splitOn (· == '/') path.toList
  obtain ⟨front, hfront⟩ := List.getLast?_eq_some_iff.mp hlast
  have hkept : (!(lastPart (· == '/') path.toList == [] ||
      lastPart (· == '/') path.toList == ['.'])) = true := by
    simp only [h.1.1, h.1.2, Bool.or_self, Bool.not_false]
  rw [parts, hfront, List.filter_append, List.filter_singleton, hkept]
  simp

/-- The last part of a path that names no directory is its file name. -/
lemma getLast?_parts (h : namesDirectory path = false) :
    ∃ name, (parts path).getLast? = some name ∧ name ≠ ".." := by
  refine ⟨_, getLast?_parts_eq h, fun heq => ?_⟩
  simp only [namesDirectory, Bool.or_eq_false_iff, beq_eq_false_iff_ne] at h
  have hchars := congrArg String.toList heq
  rw [String.toList_ofList] at hchars
  exact h.2 (hchars.trans (by decide))

/-- The last part of a path is its name, unless it is the double dot. -/
lemma fileName?_of_getLast? {name : String} (h : (parts path).getLast? = some name)
    (hname : name ≠ "..") : fileName? path = some name := by
  rw [fileName?, h]
  simp [hname]

end Path

namespace Disk

variable {d d' : Disk} {place : Place} {parts : List String} {path text : String}

/-! ### The way to directories that were made -/

/-- Parts are entered from where the parts in front of them lead. -/
lemma enter_append (d : Disk) (here : Place) (ps qs : List String) :
    d.enter here (ps ++ qs) = (d.enter here ps).bind fun there => d.enter there qs := by
  induction ps generalizing here with
  | nil => rfl
  | cons part rest ih =>
      rw [List.cons_append, enter, enter]
      cases step here part with
      | error e => rfl
      | ok next =>
          simp only
          cases hnext : d.get? next with
          | none => rfl
          | some entry =>
              cases entry with
              | file c => rfl
              | directory => exact ih next

/-- The way to a directory that was made is free. -/
lemma enter_of_makeDirectory (h : d.makeDirectory place parts = .ok d') :
    ∃ there, d'.enter place parts = .ok there := by
  have hgrows := makeDirectory_grows h
  have hdirectories : ∀ place, d.get? place = some .directory →
      d'.get? place = some .directory := by
    intro place hplace
    rcases hgrows.entries place with heq | ⟨hnone, -⟩
    · rw [heq, hplace]
    · rw [hplace] at hnone
      cases hnone
  unfold makeDirectory at h
  split at h
  case h_1 => cases h
  case h_2 last hlast =>
    split at h
    case h_1 => cases h
    case h_2 above habove =>
      split at h
      case h_1 => cases h
      case h_2 target htarget =>
        split at h
        case h_1 => cases h
        case h_2 hnone =>
          cases h
          have hroot : target ≠ [] := ne_nil_of_get? (d := d) (by simp [hnone])
          have hway := enter_of_directories hdirectories habove
          obtain ⟨front, rfl⟩ := List.getLast?_eq_some_iff.mp hlast
          rw [List.dropLast_concat] at hway
          refine ⟨target, ?_⟩
          rw [enter_append, hway]
          simp only [Except.bind, enter, htarget, get?_put_self hroot]

/-- A directory that could not be made may be there all the same. -/
lemma settled_iff (d : Disk) (place : Place) (parts : List String) (e : DiskFault) :
    (if d.leadsToDirectory place parts then ((.ok () : Except DiskFault Unit), d)
      else (.error e, d)).1 = .ok () ↔
    ∃ there, (if d.leadsToDirectory place parts then ((.ok () : Except DiskFault Unit), d)
      else (.error e, d)).2.enter place parts = .ok there := by
  unfold leadsToDirectory
  cases hway : d.enter place parts with
  | ok there => simp [hway]
  | error e => simp [hway]

/-- **Directories are made exactly if the way to them is free afterwards**, whatever was there
before. -/
lemma makeDirectories_ok_iff (d : Disk) (place : Place) (parts : List String) :
    (d.makeDirectories place parts).1 = .ok () ↔
      ∃ there, (d.makeDirectories place parts).2.enter place parts.reverse = .ok there := by
  induction parts generalizing d with
  | nil => exact iff_of_true rfl ⟨place, rfl⟩
  | cons last above ih =>
      have hmade : ∀ {d₁ d₂ : Disk}, d₁.makeDirectory place (last :: above).reverse = .ok d₂ →
          ((.ok () : Except DiskFault Unit) = .ok () ↔
            ∃ there, d₂.enter place (last :: above).reverse = .ok there) :=
        fun hmake => iff_of_true rfl (enter_of_makeDirectory hmake)
      rw [makeDirectories]
      cases hfirst : d.makeDirectory place (last :: above).reverse with
      | ok d₁ => exact hmade hfirst
      | error e =>
          cases e with
          | notFound =>
              have ih := ih d
              dsimp only
              generalize d.makeDirectories place above = outcome at ih ⊢
              obtain ⟨r, d₁⟩ := outcome
              cases r with
              | error e =>
                  -- the way ends above the last directory already
                  refine iff_of_false (by rintro ⟨⟩) ?_
                  rintro ⟨there, hway⟩
                  rw [List.reverse_cons, enter_append] at hway
                  cases habove : d₁.enter place above.reverse with
                  | error e => rw [habove] at hway; cases hway
                  | ok there => cases ih.mpr ⟨there, habove⟩
              | ok _ =>
                  cases hsecond : d₁.makeDirectory place (last :: above).reverse with
                  | ok d₂ => simpa only [hsecond] using hmade hsecond
                  | error e =>
                      simp only [hsecond]
                      exact settled_iff d₁ place _ e
          | _ => exact settled_iff d place _ _

/-- Once the directories above a file are made, the way to them is free. -/
lemma enter_of_makeParents (h : (d.makeParents path).1 = .ok ()) :
    ∃ above, (d.makeParents path).2.enter ((d.makeParents path).2.start path)
      (Path.parts path).dropLast = .ok above := by
  have hstart : (d.makeParents path).2.start path = d.start path := by
    rw [start, start, (d.makeParents_grows path).workingPlace]
  rw [hstart]
  unfold makeParents at h ⊢
  dsimp only at h ⊢
  split_ifs at h ⊢ with hnone
  · rw [List.isEmpty_iff.mp hnone]
    exact ⟨_, rfl⟩
  · obtain ⟨there, hway⟩ := (makeDirectories_ok_iff d (d.start path) _).mp h
    rw [List.reverse_reverse] at hway
    exact ⟨there, hway⟩

/-- How the directories above a file are made, where their names can be those of directories. -/
lemma makeParents_eq (hnul : ∀ part ∈ (Path.parts path).dropLast, '\x00' ∉ part.toList)
    (hshort : ("/".intercalate (Path.parts path).dropLast).utf8ByteSize < maxPath) :
    d.makeParents path = d.makeDirectories (d.start path) (Path.parts path).dropLast.reverse := by
  have hclean : (Path.parts path).dropLast.any (·.contains '\x00') = false := by
    simpa [String.contains_char_eq] using hnul
  unfold makeParents
  simp only [hclean, Bool.false_eq_true, if_false, if_neg (Nat.not_le.mpr hshort)]
  split_ifs with hnone
  · rw [List.isEmpty_iff.mp hnone]
    rfl
  · rfl

/-! ### What is at the end of the way -/

/-- Where the way to its parents is free, a path that names a file leads to its target. -/
lemma locate_of_enter {above : Place} (hfile : Path.NamesFile path)
    (hway : d.enter (d.start path) (Path.parts path).dropLast = .ok above) :
    d.locate path = .ok (d.target path) := by
  obtain ⟨name, hname, hdots⟩ := Path.getLast?_parts hfile.noDirectory
  have hshort := hfile.shortName name (Path.fileName?_of_getLast? hname hdots)
  have hplace : d.locate path = .ok (above ++ [name]) := by
    have hne := Path.ne_empty_of_namesDirectory hfile.noDirectory
    have hlong := hfile.short
    simp only [locate, hfile.contains_nul, hname, hway, step, if_neg hdots, Bool.false_eq_true,
      if_false, beq_iff_eq, hne, if_neg (Nat.not_le.mpr hlong), if_neg (Nat.not_lt.mpr hshort)]
  rw [← target_of_locate hplace, hplace]

/-- A file can be read at the end of a free way. -/
lemma readText_of_enter {above : Place} (hfile : Path.NamesFile path)
    (hway : d.enter (d.start path) (Path.parts path).dropLast = .ok above)
    (hcontent : d.fileAt? (d.target path) = some text.toUTF8) : d.readText path = .ok text :=
  (readText_eq_iff (locate_of_enter hfile hway) hfile.noDirectory).mpr hcontent

/-- Nothing is found behind a way that is not free. -/
lemma exists?_of_enter {e : DiskFault} (hparts : Path.parts path ≠ [])
    (hway : d.enter (d.start path) (Path.parts path).dropLast = .error e) :
    d.exists? path = false := by
  have hlocate : ∃ e, d.locate path = .error e := by
    obtain ⟨last, hlast⟩ := Option.ne_none_iff_exists'.mp (mt List.getLast?_eq_none_iff.mp hparts)
    unfold locate
    split_ifs
    · exact ⟨_, rfl⟩
    · exact ⟨_, rfl⟩
    · exact ⟨_, rfl⟩
    · exact ⟨e, by simp only [hlast, hway]⟩
  obtain ⟨e, hlocate⟩ := hlocate
  simp only [exists?, find, hlocate]

/-! ### Writing -/

/-- Where the way to its parents is free, a path can be written that names a file and is no
directory. -/
lemma writable_iff {above : Place}
    (hway : d.enter (d.start path) (Path.parts path).dropLast = .ok above) :
    (∃ place, d.writable path = .ok place) ↔
      Path.NamesFile path ∧ d.isDirectory path = false := by
  constructor
  · rintro ⟨place, hwritable⟩
    obtain ⟨hplace, hnot, hnames⟩ := locate_of_writable hwritable
    obtain ⟨name, hname, hdots⟩ := Path.getLast?_parts hnames
    constructor
    · unfold locate at hplace
      split_ifs at hplace with hnul hempty hlong
      refine ⟨by simpa [String.contains_char_eq] using hnul, by omega, hnames, ?_⟩
      rw [Path.fileName?_of_getLast? hname hdots]
      rintro _ ⟨rfl⟩
      simp only [hname, hway, step, if_neg hdots] at hplace
      split_ifs at hplace with hlongName
      omega
    · simp only [isDirectory, find, hplace]
      cases hentry : d.get? place with
      | none => rfl
      | some entry =>
          cases entry with
          | file c => simp [hnames]
          | directory => exact absurd hentry hnot
  · rintro ⟨hfile, hnot⟩
    have hplace := locate_of_enter hfile hway
    have hdot := Path.endsInDot_of_namesDirectory hfile.noDirectory
    refine ⟨d.target path, ?_⟩
    simp only [isDirectory, find, hplace] at hnot
    simp only [writable, hplace, hdot, hfile.noDirectory, Bool.false_eq_true, if_false]
    cases hentry : d.get? (d.target path) with
    | none => rfl
    | some entry =>
        cases entry with
        | file c => rfl
        | directory => simp [hentry] at hnot

/-- **A text can be stored** where the directories above can be made, exactly if the path names a
file and making them made none there. -/
theorem store_ok_iff (text : String) (h : (d.makeParents path).1 = .ok ()) :
    (d.store path text).1 = .ok () ↔
      Path.NamesFile path ∧ (d.makeParents path).2.isDirectory path = false := by
  obtain ⟨above, hway⟩ := enter_of_makeParents h
  rw [← writable_iff hway]
  obtain ⟨place, -, hwritable, hstore⟩ | ⟨e, hfault, hstore⟩ := d.store_cases path text
  · rw [hstore]
    exact iff_of_true rfl ⟨place, hwritable⟩
  · have hwritable : (d.makeParents path).2.writable path = .error e := by
      refine hfault.resolve_left fun hparents => ?_
      rw [h] at hparents
      cases hparents
    rw [hstore, hwritable]
    exact iff_of_false nofun nofun

/-! ### Reading after a failure -/

/-- A file that can be read can be written. -/
lemma writable_of_readText (h : d.readText path = .ok text) :
    ∃ place, d.writable path = .ok place := by
  obtain ⟨place, c, hplace, hentry, hnames⟩ := file_of_readText h
  refine ⟨place, ?_⟩
  simp only [writable, hplace, hentry, hnames, Path.endsInDot_of_namesDirectory hnames,
    Bool.false_eq_true, if_false]

/-- The way to a file that can be read is free. -/
lemma enter_of_readText (h : d.readText path = .ok text) :
    ∃ above, d.enter (d.start path) (Path.parts path).dropLast = .ok above := by
  obtain ⟨place, c, hplace, -, hnames⟩ := file_of_readText h
  obtain ⟨name, hname, -⟩ := Path.getLast?_parts hnames
  unfold locate at hplace
  split_ifs at hplace
  cases hway : d.enter (d.start path) (Path.parts path).dropLast with
  | ok above => exact ⟨above, rfl⟩
  | error e => simp [hname, hway] at hplace

/-- Where something can be read that was not there before, its parents were made. -/
lemma makeParents_ok_of_readText (habsent : d.exists? path = false)
    (h : (d.makeParents path).2.readText path = .ok text) : (d.makeParents path).1 = .ok () := by
  have hunread : d.readText path ≠ .ok text := by
    intro hread
    rw [exists?_of_readText hread] at habsent
    cases habsent
  have hway := enter_of_readText h
  have hstart : (d.makeParents path).2.start path = d.start path := by
    rw [start, start, (d.makeParents_grows path).workingPlace]
  rw [hstart] at hway
  unfold makeParents at h hway ⊢
  dsimp only at h hway ⊢
  split_ifs at h hway ⊢
  · rfl
  · exact hunread h
  · exact hunread h
  · rw [makeDirectories_ok_iff, List.reverse_reverse]
    exact hway

/-- **Where a text cannot be stored, there is nothing to read**, unless something was there
before. -/
lemma store_ok_of_readText {text' : String} (habsent : d.exists? path = false)
    (h : (d.store path text).2.readText path = .ok text') : (d.store path text).1 = .ok () := by
  obtain ⟨place, -, -, hstore⟩ | ⟨e, hfault, hstore⟩ := d.store_cases path text
  · rw [hstore]
  · rw [hstore] at h
    obtain ⟨place, hplace⟩ := writable_of_readText h
    rw [makeParents_ok_of_readText habsent h, hplace] at hfault
    obtain hparents | hwritable := hfault
    · cases hparents
    · cases hwritable

end Disk

end CodeReview

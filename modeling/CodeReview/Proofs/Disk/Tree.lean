import CodeReview.Proofs.Disk.Footprint
import CodeReview.Proofs.Disk.Parents

/-!
# Disks that are trees

A disk is a tree where everything stands in a directory, the working place included
(`Disk.IsTree`); storing a text keeps it one (`Disk.IsTree.store`).  On a tree a path that never
turns back finds its target if anything is there (`Disk.IsTree.exists?`), so that only a path with a
double dot in it can lead past a directory that is missing to something that is there.
-/

namespace CodeReview.Disk

variable {d d' : Disk} {here there place : Place} {parts : List String} {part path text : String}

/-- Everything stands in a directory, and the working place is one. -/
structure IsTree (d : Disk) : Prop where
  working : d.get? d.workingPlace = some .directory
  above : ∀ place, place ≠ [] → d.get? place ≠ none → d.get? place.dropLast = some .directory

/-! ### What keeps a tree -/

/-- Parts that are entered from a directory lead to one. -/
lemma directory_of_enter (hhere : d.get? here = some .directory)
    (h : d.enter here parts = .ok there) : d.get? there = some .directory := by
  induction parts generalizing here with
  | nil => rwa [← Except.ok.inj h]
  | cons part rest ih =>
      rw [enter] at h
      split at h
      case h_1 => cases h
      case h_2 next hstep =>
        split at h
        case h_1 => cases h
        case h_2 => cases h
        case h_3 hnext => exact ih hnext h

/-- On a tree every path starts from a directory. -/
lemma IsTree.start (h : d.IsTree) (path : String) : d.get? (d.start path) = some .directory := by
  unfold Disk.start
  split_ifs
  · rfl
  · exact h.working

/-- What stands in a directory may be put on a tree, but not in the place of a directory. -/
lemma IsTree.put (h : d.IsTree) (habove : d.get? place.dropLast = some .directory)
    (hplace : d.get? place ≠ some .directory) (entry : Entry) : (d.put place entry).IsTree := by
  have hkept : ∀ other, d.get? other = some .directory →
      (d.put place entry).get? other = some .directory := by
    intro other hother
    have hne : other ≠ place := fun heq => hplace (heq ▸ hother)
    rw [get?_put_of_ne hne, hother]
  refine ⟨hkept _ h.working, fun other hroot hother => ?_⟩
  by_cases heq : other = place
  · rw [heq]
    exact hkept _ habove
  · rw [get?_put_of_ne heq] at hother
    exact hkept _ (h.above other hroot hother)

/-- Behind a directory of a tree one part leads to something in a directory, or to a directory. -/
lemma IsTree.step (h : d.IsTree) (hhere : d.get? here = some .directory)
    (hstep : step here part = .ok place) (hplace : d.get? place ≠ some .directory) :
    d.get? place.dropLast = some .directory := by
  unfold Disk.step at hstep
  split_ifs at hstep with hback
  · -- the part leads back to what `here` stands in
    obtain rfl := Except.ok.inj hstep
    have hroot : here ≠ [] := by
      rintro rfl
      exact hplace rfl
    exact absurd (h.above here hroot (by simp [hhere])) hplace
  · rw [← Except.ok.inj hstep, List.dropLast_concat]
    exact hhere

/-- Making a directory in a directory keeps a tree. -/
lemma IsTree.makeDirectory (h : d.IsTree) (hhere : d.get? here = some .directory)
    (hmade : d.makeDirectory here parts = .ok d') : d'.IsTree := by
  unfold Disk.makeDirectory at hmade
  split at hmade
  case h_1 => cases hmade
  case h_2 last hlast =>
    split at hmade
    case h_1 => cases hmade
    case h_2 above hway =>
      split at hmade
      case h_1 => cases hmade
      case h_2 target hstep =>
        split at hmade
        case h_1 => cases hmade
        case h_2 hnone =>
          have hnot : d.get? target ≠ some .directory := by simp [hnone]
          rw [← Except.ok.inj hmade]
          exact h.put (h.step (directory_of_enter hhere hway) hstep hnot) hnot _

/-- Making directories one in the other keeps a tree. -/
lemma IsTree.makeDirectories (h : d.IsTree) (hhere : d.get? here = some .directory)
    (parts : List String) : (d.makeDirectories here parts).2.IsTree := by
  induction parts generalizing d with
  | nil => exact h
  | cons last above ih =>
      have hsettle : ∀ (d₁ : Disk) (e : DiskFault), d₁.IsTree →
          (if d₁.leadsToDirectory here (last :: above).reverse then
            ((.ok () : Except DiskFault Unit), d₁) else (.error e, d₁)).2.IsTree := by
        intro d₁ e h₁
        split_ifs
        · exact h₁
        · exact h₁
      rw [Disk.makeDirectories]
      cases hfirst : d.makeDirectory here (last :: above).reverse with
      | ok d₁ => exact h.makeDirectory hhere hfirst
      | error e =>
          cases e with
          | notFound =>
              have hrest := ih h hhere
              have hgrows := makeDirectories_grows d here above
              dsimp only
              generalize d.makeDirectories here above = outcome at hrest hgrows ⊢
              obtain ⟨r, d₁⟩ := outcome
              have hhere₁ : d₁.get? here = some .directory := by
                obtain heq | ⟨hnone, -⟩ := hgrows.entries here
                · rw [heq, hhere]
                · rw [hhere] at hnone
                  cases hnone
              cases r with
              | error e => exact hrest
              | ok _ =>
                  cases hsecond : d₁.makeDirectory here (last :: above).reverse with
                  | ok d₂ => simpa only [hsecond] using hrest.makeDirectory hhere₁ hsecond
                  | error e => simpa only [hsecond] using hsettle d₁ e hrest
          | _ => exact hsettle d _ h

/-- Making the directories above a path keeps a tree. -/
lemma IsTree.makeParents (h : d.IsTree) (path : String) : (d.makeParents path).2.IsTree := by
  unfold Disk.makeParents
  dsimp only
  split_ifs
  · exact h
  · exact h
  · exact h
  · exact h.makeDirectories (h.start path) _

/-- A file can be put where a path can be written. -/
lemma IsTree.put_of_writable (h : d.IsTree) (hwritable : d.writable path = .ok place)
    (entry : Entry) : (d.put place entry).IsTree := by
  obtain ⟨hplace, hnot, -⟩ := locate_of_writable hwritable
  refine h.put ?_ hnot entry
  unfold locate at hplace
  split_ifs at hplace
  split at hplace
  case h_1 =>
    rw [← Except.ok.inj hplace] at hnot
    exact absurd (h.start path) hnot
  case h_2 last hlast =>
    split at hplace
    case h_1 => cases hplace
    case h_2 above hway =>
      exact h.step (directory_of_enter (h.start path) hway) hplace hnot

/-- **Storing a text keeps a tree a tree**, also where it fails. -/
lemma IsTree.store (h : d.IsTree) (path text : String) : (d.store path text).2.IsTree := by
  obtain ⟨place, -, hwritable, hstore⟩ | ⟨e, -, hstore⟩ := d.store_cases path text
  · rw [hstore]
    exact (h.makeParents path).put_of_writable hwritable _
  · rw [hstore]
    exact h.makeParents path

/-! ### Straight ways -/

/-- Parts without a double dot lead downwards. -/
lemma walk_of_straight (h : ".." ∉ parts) (here : Place) : walk here parts = here ++ parts := by
  induction parts generalizing here with
  | nil => exact (List.append_nil here).symm
  | cons part rest ih =>
      rw [List.mem_cons, not_or] at h
      have hstep : walk here (part :: rest) = walk (here ++ [part]) rest := by
        simp [walk, next, Ne.symm h.1]
      rw [hstep, ih h.2, List.append_assoc, List.singleton_append]

/-- Whatever stands on a tree stands in directories all the way up. -/
lemma IsTree.directory_of_append (h : d.IsTree) {below : Place} (hbelow : below ≠ [])
    (hplace : d.get? (place ++ below) ≠ none) : d.get? place = some .directory := by
  induction below using List.reverseRecOn with
  | nil => exact absurd rfl hbelow
  | append_singleton front last ih =>
      have habove := h.above (place ++ (front ++ [last])) (by simp) hplace
      rw [← List.append_assoc, List.dropLast_concat] at habove
      cases front with
      | nil => simpa using habove
      | cons part rest => exact ih (by simp) (by simp [habove])

/-- A way that is free on one disk is free on another where it leads past directories only. -/
lemma enter_of_walk (h : d'.enter here parts = .ok there)
    (hway : ∀ front, front <+: parts → front ≠ [] →
      d.get? (walk here front) = some .directory) : d.enter here parts = .ok there := by
  induction parts generalizing here with
  | nil => exact h
  | cons part rest ih =>
      rw [enter] at h ⊢
      cases hstep : Disk.step here part with
      | error e => rw [hstep] at h; cases h
      | ok place =>
          rw [hstep] at h
          have hplace := next_of_step hstep
          have hfirst := hway [part] (by simp) (by simp)
          have hwalk : walk here [part] = place := hplace.symm
          rw [hwalk] at hfirst
          simp only [hfirst] at h ⊢
          split at h
          case h_1 => cases h
          case h_2 => cases h
          case h_3 =>
            refine ih h fun front hfront hne => ?_
            have hlonger := hway (part :: front) (List.cons_prefix_cons.mpr ⟨rfl, hfront⟩) (by simp)
            rwa [hplace]

/-- The places on a straight way to something on a tree are directories. -/
lemma IsTree.directory_of_way (h : d.IsTree) (hstraight : ".." ∉ Path.parts path)
    (hthere : d.get? (d.target path) ≠ none) {front : List String} {name : String}
    (hparts : Path.parts path = front ++ [name]) {ps : List String} (hps : ps <+: front) :
    d.get? (walk (d.start path) ps) = some .directory := by
  obtain ⟨rest, rfl⟩ := hps
  have hpart : ".." ∉ ps := fun hmem => hstraight (by simp [hparts, hmem])
  have htarget : d.target path = (d.start path ++ ps) ++ (rest ++ [name]) := by
    rw [target, walk_of_straight hstraight, hparts]
    simp
  rw [walk_of_straight hpart]
  exact h.directory_of_append (by simp) (htarget ▸ hthere)

/-- All that a straight path leads past to something on a tree is a directory. -/
lemma IsTree.directory_of_mem_way (h : d.IsTree) (hstraight : ".." ∉ Path.parts path)
    (hthere : d.get? (d.target path) ≠ none) (hway : place ∈ d.way path) :
    d.get? place = some .directory := by
  obtain ⟨ps, hps, rfl⟩ := mem_way_iff.mp hway
  rcases List.eq_nil_or_concat (Path.parts path) with hnone | ⟨front, name, hparts⟩
  · rw [hnone, List.dropLast_nil, List.prefix_nil] at hps
    rw [hps]
    exact h.start path
  · rw [List.concat_eq_append] at hparts
    rw [hparts, List.dropLast_concat] at hps
    exact h.directory_of_way hstraight hthere hparts hps

/-- On a tree, a path without double dots finds its target if anything is there. -/
lemma IsTree.locate (h : d.IsTree) (hstraight : ".." ∉ Path.parts path)
    (hthere : d.get? (d.target path) ≠ none) (hstart : d'.start path = d.start path)
    (hnames : Path.namesDirectory path = false) (hlocate : d'.locate path = .ok place) :
    d.locate path = .ok (d.target path) := by
  obtain ⟨name, hlast, -⟩ := Path.getLast?_parts hnames
  obtain ⟨front, hfront⟩ := List.getLast?_eq_some_iff.mp hlast
  unfold Disk.locate at hlocate ⊢
  split_ifs at hlocate ⊢
  rw [hlast, hstart] at hlocate
  rw [hlast]
  simp only [hfront, List.dropLast_concat] at hlocate ⊢
  cases hway : d'.enter (d.start path) front with
  | error e => rw [hway] at hlocate; cases hlocate
  | ok above =>
      rw [hway] at hlocate
      rw [enter_of_walk hway fun ps hps _ => h.directory_of_way hstraight hthere hfront hps,
        target, hfront, walk_append, ← walk_of_enter hway]
      simp only at hlocate ⊢
      rw [hlocate, next_of_step hlocate]
      rfl

/-- **On a tree, a path without double dots finds what a text stored there replaces.** -/
theorem IsTree.exists? (h : d.IsTree) (hstraight : ".." ∉ Path.parts path)
    (hstore : (d.store path text).1 = .ok ()) (hthere : d.get? (d.target path) ≠ none) :
    d.exists? path = true := by
  obtain ⟨-, hwritable, -⟩ := writable_of_store hstore
  obtain ⟨hlocate, -, hnames⟩ := locate_of_writable hwritable
  have hstart : (d.makeParents path).2.start path = d.start path := by
    rw [Disk.start, Disk.start, (d.makeParents_grows path).workingPlace]
  have hfound := h.locate hstraight hthere hstart hnames hlocate
  cases hentry : d.get? (d.target path) with
  | none => exact absurd hentry hthere
  | some entry =>
      cases entry with
      | directory => simp only [Disk.exists?, find, hfound, hentry]
      | file c => simp [Disk.exists?, find, hfound, hentry, hnames]

end CodeReview.Disk

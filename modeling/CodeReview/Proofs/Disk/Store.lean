import CodeReview.Disk.Basic
import CodeReview.Proofs.Text.Bytes
import Mathlib.Tactic

/-!
# What storing a text does to the files

Storing a text makes the directories above its file and writes the file (`Disk.store_cases`).
Making directories only adds some where nothing was (`Disk.Grows`), so that no file changes by it,
also where it is broken off.  A text that was stored is the whole content of the file that its path names, and every other
file is as it was (`Disk.stored_of_store`).
-/

namespace CodeReview.Disk

variable {d d' d₁ d₂ d₃ : Disk} {place other : Place} {entry : Entry} {parts : List String}
  {path text : String}

/-! ### Entries -/

/-- Leaving out the entries of one place does not change what is found at another. -/
lemma lookup_filter_ne (entries : List (Place × Entry)) (h : other ≠ place) :
    (entries.filter fun e => e.1 ≠ place).lookup other = entries.lookup other := by
  induction entries with
  | nil => rfl
  | cons e rest ih =>
      obtain ⟨key, value⟩ := e
      by_cases hkey : key = place
      · subst hkey
        have hne : (other == key) = false := beq_eq_false_iff_ne.mpr h
        rw [List.filter_cons_of_neg (by simp), ih, List.lookup_cons, hne]
      · rw [List.filter_cons_of_pos (by simpa using hkey), List.lookup_cons, List.lookup_cons, ih]

/-- What is put at a place is there. -/
lemma get?_put_self (h : place ≠ []) : (d.put place entry).get? place = some entry := by
  simp [get?, put, h]

/-- What is put at a place does not change what is elsewhere. -/
lemma get?_put_of_ne (h : other ≠ place) : (d.put place entry).get? other = d.get? other := by
  have hne : (other == place) = false := beq_eq_false_iff_ne.mpr h
  unfold get? put
  rw [List.lookup_cons, hne, lookup_filter_ne _ h]

/-- The root is always a directory. -/
lemma ne_nil_of_get? (h : d.get? place ≠ some .directory) : place ≠ [] := by
  rintro rfl
  exact h rfl

/-- The content of the file at a place, if there is one. -/
def fileAt? (d : Disk) (place : Place) : Option ByteArray :=
  match d.get? place with
  | some (.file c) => some c
  | _ => none

/-- Every file is as it was. -/
def SameFiles (d d' : Disk) : Prop := ∀ place, d'.fileAt? place = d.fileAt? place

/-! ### Directories that are made -/

/-- Nothing changed but that directories were made where nothing was. -/
structure Grows (d d' : Disk) : Prop where
  workingPlace : d'.workingPlace = d.workingPlace
  entries : ∀ place, d'.get? place = d.get? place ∨
    (d.get? place = none ∧ d'.get? place = some .directory)

namespace Grows

/-- A disk that is left as it is grows, in the wide sense. -/
lemma refl (d : Disk) : d.Grows d := ⟨rfl, fun _ => .inl rfl⟩

/-- What only makes directories twice only makes directories. -/
lemma trans (h : d₁.Grows d₂) (h' : d₂.Grows d₃) : d₁.Grows d₃ := by
  refine ⟨h'.workingPlace.trans h.workingPlace, fun place => ?_⟩
  obtain heq | ⟨hnone, hnew⟩ := h.entries place
  · obtain heq' | ⟨hnone', hnew'⟩ := h'.entries place
    · exact .inl (heq'.trans heq)
    · exact .inr ⟨by rw [← heq, hnone'], hnew'⟩
  · obtain heq' | ⟨hnone', -⟩ := h'.entries place
    · exact .inr ⟨hnone, by rw [heq', hnew]⟩
    · rw [hnew] at hnone'
      cases hnone'

/-- Directories that are made change no file. -/
lemma sameFiles (h : d.Grows d') : d.SameFiles d' := by
  intro place
  obtain heq | ⟨hnone, hnew⟩ := h.entries place
  · rw [fileAt?, heq, fileAt?]
  · rw [fileAt?, hnew, fileAt?, hnone]

end Grows

/-- Making a directory only makes directories. -/
lemma makeDirectory_grows (h : d.makeDirectory place parts = .ok d') : d.Grows d' := by
  unfold makeDirectory at h
  split at h
  · cases h
  split at h
  · cases h
  split at h
  · cases h
  rename_i target _
  split at h
  · cases h
  rename_i hnone
  cases h
  refine ⟨rfl, fun other => ?_⟩
  by_cases hother : other = target
  · subst hother
    have hroot : other ≠ [] := ne_nil_of_get? (d := d) (by simp [hnone])
    exact .inr ⟨hnone, get?_put_self hroot⟩
  · exact .inl (get?_put_of_ne hother)

/-- Also where a fault stops the work halfway, only directories were made. -/
lemma makeDirectories_grows (d : Disk) (place : Place) (parts : List String) :
    d.Grows (d.makeDirectories place parts).2 := by
  induction parts generalizing d with
  | nil => exact .refl d
  | cons last above ih =>
      have hsettle : ∀ (d₁ : Disk) (e : DiskFault), d.Grows d₁ →
          d.Grows (if d₁.leadsToDirectory place (last :: above).reverse then
            ((.ok () : Except DiskFault Unit), d₁) else (.error e, d₁)).2 := by
        intro d₁ e h
        split_ifs
        · exact h
        · exact h
      rw [makeDirectories]
      cases hfirst : d.makeDirectory place (last :: above).reverse with
      | ok d₁ => exact makeDirectory_grows hfirst
      | error e =>
          cases e with
          | notFound =>
              have habove := ih d
              dsimp only
              generalize d.makeDirectories place above = outcome at habove ⊢
              obtain ⟨r, d₁⟩ := outcome
              cases r with
              | error e => exact habove
              | ok _ =>
                  cases hsecond : d₁.makeDirectory place (last :: above).reverse with
                  | ok d₂ => simpa only [hsecond] using habove.trans (makeDirectory_grows hsecond)
                  | error e => simpa only [hsecond] using hsettle d₁ e habove
          | _ => exact hsettle d _ (.refl d)

/-- Making the directories above a path only makes directories, even where it fails in the end. -/
lemma makeParents_grows (d : Disk) (path : String) : d.Grows (d.makeParents path).2 := by
  unfold makeParents
  dsimp only
  split_ifs
  · exact .refl d
  · exact .refl d
  · exact .refl d
  · exact makeDirectories_grows _ _ _

/-! ### The file -/

/-- Where more directories are, the same way can be gone. -/
lemma enter_of_directories (h : ∀ place, d.get? place = some .directory →
    d'.get? place = some .directory) {here there : Place} (hway : d.enter here parts = .ok there) :
    d'.enter here parts = .ok there := by
  induction parts generalizing here with
  | nil => exact hway
  | cons part rest ih =>
      rw [enter] at hway ⊢
      cases hstep : step here part with
      | error e => rw [hstep] at hway; cases hway
      | ok next =>
          rw [hstep] at hway
          simp only at hway ⊢
          cases hnext : d.get? next with
          | none => rw [hnext] at hway; cases hway
          | some found =>
              cases found with
              | file c => rw [hnext] at hway; cases hway
              | directory =>
                  rw [hnext] at hway
                  rw [h next hnext]
                  exact ih hway

/-- A path is located where it was as long as the directories are still there. -/
lemma locate_of_directories (h : ∀ place, d.get? place = some .directory →
    d'.get? place = some .directory) (hwork : d'.workingPlace = d.workingPlace)
    (hplace : d.locate path = .ok place) : d'.locate path = .ok place := by
  have hstart : d'.start path = d.start path := by rw [start, start, hwork]
  unfold locate at hplace ⊢
  split_ifs at hplace ⊢
  rw [hstart]
  cases hlast : (Path.parts path).getLast? with
  | none =>
      rw [hlast] at hplace
      exact hplace
  | some last =>
      rw [hlast] at hplace
      simp only at hplace ⊢
      cases hway : d.enter (d.start path) (Path.parts path).dropLast with
      | error e => rw [hway] at hplace; cases hplace
      | ok above =>
          rw [hway] at hplace
          rw [enter_of_directories h hway]
          exact hplace

/-- A file can be written where a path leads, unless a directory is or would be there. -/
lemma locate_of_writable (h : d.writable path = .ok place) :
    d.locate path = .ok place ∧ d.get? place ≠ some .directory ∧
      Path.namesDirectory path = false := by
  unfold writable at h
  cases hplace : d.locate path with
  | error e => rw [hplace] at h; cases h
  | ok found =>
      rw [hplace] at h
      simp only at h
      split at h
      · cases h
      · rename_i hnone
        split_ifs at h with hdot hdir
        cases h
        exact ⟨rfl, by simp [hnone], by simpa using hdir⟩
      · rename_i c hfile
        split_ifs at h with hdot hdir
        cases h
        exact ⟨rfl, by simp [hfile], by simpa using hdir⟩

/-- A text is read from a file, under a path that names no directory. -/
lemma file_of_readText (h : d.readText path = .ok text) : ∃ place c, d.locate path = .ok place ∧
    d.get? place = some (.file c) ∧ Path.namesDirectory path = false := by
  unfold readText readBytes find at h
  cases hplace : d.locate path with
  | error e => simp [hplace] at h
  | ok place =>
      cases hentry : d.get? place with
      | none => simp [hplace, hentry] at h
      | some entry =>
          cases entry with
          | directory => simp [hplace, hentry] at h
          | file c =>
              refine ⟨place, c, rfl, hentry, ?_⟩
              by_contra hnames
              rw [Bool.not_eq_false] at hnames
              simp [hplace, hentry, hnames] at h

/-- No file is without a name. -/
lemma ne_empty_of_readText (h : d.readText path = .ok text) : path ≠ "" := by
  rintro rfl
  obtain ⟨place, c, hplace, -⟩ := file_of_readText h
  unfold locate at hplace
  rw [if_pos (show ("" == "") = true from rfl)] at hplace
  split_ifs at hplace

/-- Where a text can be read, something is. -/
lemma exists?_of_readText (h : d.readText path = .ok text) : d.exists? path = true := by
  obtain ⟨place, c, hplace, hentry, hnames⟩ := file_of_readText h
  simp [exists?, find, hplace, hentry, hnames]

/-- A text is the whole content of the file that a path names, and every other file is as it
was. -/
structure Stored (path text : String) (d d' : Disk) : Prop where
  content : d'.readBytes path = .ok text.toUTF8
  others : ∃ place, d'.locate path = .ok place ∧
    ∀ other, other ≠ place → d'.fileAt? other = d.fileAt? other

/-- A text that is stored is read again. -/
lemma Stored.readText (h : Stored path text d d') : d'.readText path = .ok text := by
  rw [Disk.readText, h.content]
  simp only [Text.fromUTF8?_toUTF8]

/-- A text that is put where a path can be written is stored there. -/
lemma stored_of_put (text : String) (hwritable : d.writable path = .ok place) :
    Stored path text d (d.put place (.file text.toUTF8)) := by
  obtain ⟨hplace, hnot, hnames⟩ := locate_of_writable hwritable
  have hself : (d.put place (.file text.toUTF8)).get? place = some (.file text.toUTF8) :=
    get?_put_self (ne_nil_of_get? hnot)
  have hdirectories : ∀ other, d.get? other = some .directory →
      (d.put place (.file text.toUTF8)).get? other = some .directory := by
    intro other hother
    have hne : other ≠ place := by
      rintro rfl
      exact hnot hother
    rw [get?_put_of_ne hne, hother]
  have hlocate : (d.put place (.file text.toUTF8)).locate path = .ok place :=
    locate_of_directories hdirectories rfl hplace
  constructor
  · simp only [readBytes, find, hlocate, hself, hnames, Bool.false_eq_true, if_false]
  · refine ⟨place, hlocate, fun other hother => ?_⟩
    rw [fileAt?, fileAt?, get?_put_of_ne hother]

/-- What storing a text does: it makes the parents, and puts the file where the path can be written
then; where they cannot be made or the path cannot be written, nothing follows. -/
lemma store_cases (d : Disk) (path text : String) :
    (∃ place, (d.makeParents path).1 = .ok () ∧
        (d.makeParents path).2.writable path = .ok place ∧
        d.store path text = (.ok (), (d.makeParents path).2.put place (.file text.toUTF8))) ∨
      ∃ e, ((d.makeParents path).1 = .error e ∨ (d.makeParents path).2.writable path = .error e) ∧
        d.store path text = (.error e, (d.makeParents path).2) := by
  unfold store
  generalize d.makeParents path = outcome
  obtain ⟨r, d₁⟩ := outcome
  cases r with
  | error e => exact .inr ⟨e, .inl rfl, rfl⟩
  | ok _ =>
      cases hwritable : d₁.writable path with
      | error e => exact .inr ⟨e, .inr rfl, by simp only [writeText, hwritable]⟩
      | ok place => exact .inl ⟨place, rfl, rfl, by simp only [writeText, hwritable]⟩

/-- Where a text cannot be stored, no more than its parents was made. -/
lemma store_eq_makeParents {e : DiskFault} (h : (d.store path text).1 = .error e) :
    (d.store path text).2 = (d.makeParents path).2 := by
  obtain ⟨place, -, -, hstore⟩ | ⟨e, -, hstore⟩ := d.store_cases path text
  · rw [hstore] at h
    cases h
  · rw [hstore]

/-- **A text that was stored is the whole content of its file, and no other file changed.** -/
theorem stored_of_store (h : (d.store path text).1 = .ok ()) :
    Stored path text d (d.store path text).2 := by
  obtain ⟨place, -, hwritable, hstore⟩ | ⟨e, -, hstore⟩ := d.store_cases path text
  · rw [hstore]
    obtain ⟨hcontent, found, hfound, hothers⟩ := stored_of_put text hwritable
    refine ⟨hcontent, found, hfound, fun other hother => ?_⟩
    exact (hothers other hother).trans ((d.makeParents_grows path).sameFiles other)
  · rw [hstore] at h
    cases h

/-- **Where a text cannot be stored, no file changes.** -/
theorem sameFiles_of_store {e : DiskFault} (h : (d.store path text).1 = .error e) :
    d.SameFiles (d.store path text).2 := by
  rw [store_eq_makeParents h]
  exact (d.makeParents_grows path).sameFiles

end CodeReview.Disk

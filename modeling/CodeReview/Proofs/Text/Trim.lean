import CodeReview.Text.Blank
import Mathlib.Data.List.DropRight
import Mathlib.Tactic

/-!
# Trimming

What is left of a text without its blank ends: nothing exactly where all of it is blank, and
otherwise a text that begins and ends in characters that are not blank, which is why trimming it
once more changes nothing.
-/

namespace CodeReview.Text

variable {s gap gap' : List Char}

/-- What ends in something that stays loses nothing. -/
lemma dropEndWhile_append_of_last {p : Char → Bool} {x y : List Char} (hy : dropEndWhile p y = y)
    (hne : y ≠ []) : dropEndWhile p (x ++ y) = x ++ y := by
  have hlast := List.rdropWhile_eq_self_iff.mp hy hne
  refine List.rdropWhile_eq_self_iff.mpr fun hall => ?_
  rwa [List.getLast_append_of_ne_nil hall hne]

/-- Neither the first nor the last character of a text is blank. -/
structure HasSoundEnds (s : List Char) : Prop where
  head : ∀ c ∈ s.head?, isBlank c = false
  last : ∀ c ∈ s.getLast?, isBlank c = false

/-- A text that does not begin with a blank has none to drop. -/
lemma dropWhile_eq_self (h : ∀ c ∈ s.head?, isBlank c = false) : s.dropWhile isBlank = s := by
  cases s with
  | nil => rfl
  | cons c rest => exact List.dropWhile_cons_of_neg (by simp [h c rfl])

/-- Blanks around a text that has sound ends are what is removed. -/
lemma trimChars_append_append (hgap : ∀ c ∈ gap, isBlank c = true) (hs : HasSoundEnds s)
    (hgap' : ∀ c ∈ gap', isBlank c = true) : trimChars (gap ++ s ++ gap') = s := by
  have hback : ∀ c ∈ gap'.reverse, isBlank c = true := by simpa using hgap'
  have hrest : trimEndChars (s ++ gap') = s := by
    rw [trimEndChars, dropEndWhile, List.reverse_append, List.dropWhile_append_of_pos hback,
      dropWhile_eq_self (by simpa using hs.last), List.reverse_reverse]
  rw [trimChars, List.append_assoc, List.dropWhile_append_of_pos hgap]
  cases s with
  | nil =>
      have hall : gap'.dropWhile isBlank = [] := List.dropWhile_eq_nil_iff.mpr hgap'
      rw [List.nil_append, hall]
      rfl
  | cons c rest => rw [dropWhile_eq_self (by simpa using hs.head), hrest]

/-- A text with sound ends is not trimmed. -/
lemma trimChars_eq_self (hs : HasSoundEnds s) : trimChars s = s := by
  have hself := @trimChars_append_append s [] [] (by simp) hs (by simp)
  simpa using hself

/-- What is trimmed has sound ends. -/
lemma hasSoundEnds_trimChars (s : List Char) : HasSoundEnds (trimChars s) := by
  constructor
  · intro c hc
    -- what is left at the front is also the front of what the blanks there were dropped from
    obtain ⟨rest, hrest⟩ : trimChars s <+: s.dropWhile isBlank := List.rdropWhile_prefix ..
    have hnot := List.head?_dropWhile_not isBlank s
    rw [← hrest, List.head?_append, Option.mem_def.mp hc] at hnot
    simpa using hnot
  · intro c hc
    have hnot := List.head?_dropWhile_not isBlank (s.dropWhile isBlank).reverse
    rw [trimChars, trimEndChars, dropEndWhile, List.getLast?_reverse] at hc
    rw [Option.mem_def.mp hc] at hnot
    simpa using hnot

/-- Trimming characters again changes nothing. -/
lemma trimChars_trimChars (s : List Char) : trimChars (trimChars s) = trimChars s :=
  trimChars_eq_self (hasSoundEnds_trimChars s)

/-- Nothing is left of a text of blanks, and of it alone. -/
lemma trimChars_eq_nil_iff : trimChars s = [] ↔ ∀ c ∈ s, isBlank c = true := by
  have hend : trimChars s = [] ↔ ∀ c ∈ s.dropWhile isBlank, isBlank c = true :=
    List.rdropWhile_eq_nil_iff
  rw [hend, ← List.dropWhile_eq_nil_iff, ← List.dropWhile_eq_nil_iff, List.dropWhile_idempotent]

/-- Trimming a trimmed text changes nothing. -/
lemma trim_trim (s : String) : trim (trim s) = trim s := by
  rw [trim, trim, String.toList_ofList, trimChars_trimChars]

/-- Nothing is left of a text exactly where all of it is blank. -/
lemma trim_eq_empty_iff {s : String} : trim s = "" ↔ allBlank s = true := by
  rw [trim, String.ofList_eq_empty_iff, trimChars_eq_nil_iff, allBlank, List.all_eq_true]

/-! ### The blanks around a text -/

/-- The blanks in front of a text. -/
def gapBefore (s : String) : List Char := s.toList.takeWhile isBlank

/-- The blanks behind a text; of a text that is blank all are in front. -/
def gapBehind (s : String) : List Char :=
  ((s.toList.dropWhile isBlank).reverse.takeWhile isBlank).reverse

/-- A text is what trimming leaves of it, between its blanks. -/
lemma gaps_eq (s : String) : gapBefore s ++ (trim s).toList ++ gapBehind s = s.toList := by
  have hbehind : trimEndChars (s.toList.dropWhile isBlank) ++ gapBehind s =
      s.toList.dropWhile isBlank := by
    rw [trimEndChars, dropEndWhile, gapBehind, ← List.reverse_append,
      List.takeWhile_append_dropWhile, List.reverse_reverse]
  rw [trim, String.toList_ofList, trimChars, List.append_assoc, hbehind, gapBefore,
    List.takeWhile_append_dropWhile]

/-- What is in front of a trimmed text is blank. -/
lemma isBlank_of_mem_gapBefore {s : String} {c : Char} (h : c ∈ gapBefore s) :
    isBlank c = true := List.mem_takeWhile_imp h

/-- What is behind a trimmed text is blank. -/
lemma isBlank_of_mem_gapBehind {s : String} {c : Char} (h : c ∈ gapBehind s) :
    isBlank c = true := List.mem_takeWhile_imp (List.mem_reverse.mp h)

end CodeReview.Text

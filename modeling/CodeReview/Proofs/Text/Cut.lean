import CodeReview.Text.Blank
import CodeReview.Text.Split
import Mathlib.Data.List.Infix
import Mathlib.Data.List.TakeWhile
import Mathlib.Tactic

/-!
# Cutting a row at one of its members

A member that a pattern does not hold cuts a row in two: the pattern stands on one side of it or on
the other.  What is read up to such a member does not depend on what comes after it.  A row that is
cut at all its separators ends in the part behind the last of them (`getLast?_splitOn`).
-/

namespace CodeReview.Text

variable {α : Type} {l x y : List α} {c : α}

/-- A row without `c` starts before `c` only if it stands there as a whole. -/
lemma prefix_append_cons_iff (hc : c ∉ l) : l <+: x ++ c :: y ↔ l <+: x := by
  constructor
  · intro h
    induction x generalizing l with
    | nil =>
        cases l with
        | nil => exact List.prefix_rfl
        | cons d l =>
            rw [List.nil_append, List.cons_prefix_cons] at h
            exact absurd (h.1 ▸ List.mem_cons_self) hc
    | cons e x ih =>
        cases l with
        | nil => exact List.nil_prefix
        | cons d l =>
            rw [List.cons_append, List.cons_prefix_cons] at h
            rw [List.cons_prefix_cons]
            exact ⟨h.1, ih (fun hl => hc (List.mem_cons_of_mem d hl)) h.2⟩
  · intro h
    exact h.trans (List.prefix_append _ _)

/-- A row without `c` does not reach across it. -/
lemma infix_append_cons_iff (hc : c ∉ l) : l <:+: x ++ c :: y ↔ l <:+: x ∨ l <:+: y := by
  induction x with
  | nil =>
      have hstart : l <+: c :: y ↔ l <+: [] := prefix_append_cons_iff (x := []) hc
      rw [List.nil_append, List.infix_cons_iff, hstart, List.prefix_nil, List.infix_nil]
  | cons e x ih =>
      have hstart : l <+: e :: (x ++ c :: y) ↔ l <+: e :: x :=
        prefix_append_cons_iff (x := e :: x) hc
      rw [List.cons_append, List.infix_cons_iff, hstart, ih, List.infix_cons_iff, or_assoc]

section Reading

variable (p : α → Bool)

/-- Dropping stops at the first character that is to stay. -/
lemma dropWhile_append_cons (hc : p c = false) (x y : List α) :
    (x ++ c :: y).dropWhile p = x.dropWhile p ++ c :: y := by
  rw [List.dropWhile_append]
  split_ifs with hnone
  · rw [List.isEmpty_iff.mp hnone, List.dropWhile_cons_of_neg (by simp [hc]), List.nil_append]
  · rfl

/-- Taking stops at the first character that is not to be taken. -/
lemma takeWhile_append_cons (hc : p c = false) (x y : List α) :
    (x ++ c :: y).takeWhile p = x.takeWhile p := by
  rw [List.takeWhile_append]
  split_ifs with hall
  · rw [List.takeWhile_cons_of_neg (by simp [hc]), List.append_nil,
      (List.takeWhile_prefix p).eq_of_length hall]
  · rfl

/-- Dropping from the end stops at the last character that is to stay. -/
lemma dropEndWhile_append_cons (hc : p c = false) (x y : List α) :
    dropEndWhile p (x ++ c :: y) = x ++ c :: dropEndWhile p y := by
  rw [dropEndWhile, List.reverse_append, List.reverse_cons, List.append_assoc,
    List.singleton_append, dropWhile_append_cons p hc]
  simp [dropEndWhile]

/-- A row that is not of one kind is cut at the first member of another kind. -/
lemma exists_first_of_not (h : ∃ c ∈ x, p c = false) :
    ∃ front c behind, x = front ++ c :: behind ∧ p c = false ∧ ∀ d ∈ front, p d = true := by
  obtain ⟨d, hd⟩ : ∃ d, x.find? (!p ·) = some d := by
    rw [← Option.isSome_iff_exists, List.find?_isSome]
    simpa using h
  obtain ⟨hnot, front, behind, hsplit, hfront⟩ := List.find?_eq_some_iff_append.mp hd
  exact ⟨front, d, behind, hsplit, by simpa using hnot, by simpa using hfront⟩

/-- A row that is not of one kind is cut at the last member of another kind. -/
lemma exists_last_of_not (h : ∃ c ∈ x, p c = false) :
    ∃ front c behind, x = front ++ c :: behind ∧ p c = false ∧ ∀ d ∈ behind, p d = true := by
  obtain ⟨front, c, behind, hsplit, hc, hfront⟩ := exists_first_of_not p (x := x.reverse)
    (by simpa using h)
  refine ⟨behind.reverse, c, front.reverse, ?_, hc, by simpa using hfront⟩
  rw [← List.reverse_reverse x, hsplit]
  simp

end Reading

section Separators

variable {sep : α → Bool} {s : List α}

/-- Without separators there is one part. -/
lemma splitOn_of_none (h : ∀ c ∈ s, sep c = false) : splitOn sep s = [s] := by
  induction s with
  | nil => rfl
  | cons c rest ih =>
      rw [List.forall_mem_cons] at h
      simp only [splitOn, h.1, Bool.false_eq_true, if_false, ih h.2]

/-- There always is a part. -/
lemma splitOn_ne_nil (sep : α → Bool) (s : List α) : splitOn sep s ≠ [] := by
  cases s with
  | nil => simp [splitOn]
  | cons c rest =>
      rw [splitOn]
      split_ifs
      · simp
      · split
        · simp
        · simp

/-- Separators separate the parts in front of them from those behind. -/
lemma splitOn_append_separator (hc : sep c = true) (x y : List α) :
    splitOn sep (x ++ c :: y) = splitOn sep x ++ splitOn sep y := by
  induction x with
  | nil => simp only [List.nil_append, splitOn, hc, if_true, List.singleton_append]
  | cons d x ih =>
      by_cases hd : sep d = true
      · simp only [List.cons_append, splitOn, hd, if_true, ih]
      · simp only [List.cons_append, splitOn, hd, Bool.false_eq_true, if_false, ih]
        cases hx : splitOn sep x with
        | nil => exact absurd hx (splitOn_ne_nil sep x)
        | cons part parts => rfl

/-- The last part has no separators. -/
lemma sep_of_mem_lastPart (h : c ∈ lastPart sep s) : sep c = false := by
  simpa using List.mem_takeWhile_imp (List.mem_reverse.mp h)

/-- Characters of the last part are in the text, in their order. -/
lemma lastPart_sublist (sep : α → Bool) (s : List α) : (lastPart sep s).Sublist s := by
  rw [lastPart, ← List.reverse_sublist, List.reverse_reverse]
  exact (List.takeWhile_prefix _).sublist

/-- Behind a separator the last part is that of the rest. -/
lemma lastPart_append_separator (hc : sep c = true) (x y : List α) :
    lastPart sep (x ++ c :: y) = lastPart sep y := by
  rw [lastPart, List.reverse_append, List.reverse_cons, List.append_assoc, List.singleton_append,
    takeWhile_append_cons _ (by simp [hc])]
  rfl

/-- A text without separators goes on with the last part. -/
lemma lastPart_append_of_none (h : ∀ c ∈ y, sep c = false) (x : List α) :
    lastPart sep (x ++ y) = lastPart sep x ++ y := by
  rw [lastPart, List.reverse_append, List.takeWhile_append_of_pos (by simpa using h),
    List.reverse_append, List.reverse_reverse]
  rfl

/-- A text without separators is its own last part. -/
lemma lastPart_of_none (h : ∀ c ∈ y, sep c = false) : lastPart sep y = y :=
  lastPart_append_of_none h []

/-- A text without the one separator is its own last part. -/
lemma lastPart_of_not_mem [DecidableEq α] (h : c ∉ y) : lastPart (· == c) y = y :=
  lastPart_of_none fun _ hd => beq_eq_false_iff_ne.mpr fun heq => h (heq ▸ hd)

/-- A text with separators has its own last part, whatever stands in front. -/
lemma lastPart_append_of_some (h : ∃ c ∈ y, sep c = true) (x : List α) :
    lastPart sep (x ++ y) = lastPart sep y := by
  obtain ⟨c, hc, hsep⟩ := h
  obtain ⟨front, behind, rfl⟩ := List.append_of_mem hc
  rw [← List.append_assoc, lastPart_append_separator hsep, lastPart_append_separator hsep]

/-- What has no separator in front of a row is in front of its first part. -/
lemma splitOn_append_of_none (h : ∀ c ∈ x, sep c = false) {part : List α} {parts : List (List α)}
    (hs : splitOn sep s = part :: parts) : splitOn sep (x ++ s) = (x ++ part) :: parts := by
  induction x with
  | nil => exact hs
  | cons c rest ih =>
      rw [List.forall_mem_cons] at h
      simp only [List.cons_append, splitOn, h.1, Bool.false_eq_true, if_false, ih h.2]

/-- The part behind the last separator stands last. -/
lemma getLast?_splitOn (sep : α → Bool) (s : List α) :
    (splitOn sep s).getLast? = some (lastPart sep s) := by
  have hcut : (s.reverse.dropWhile fun c => !sep c).reverse ++ lastPart sep s = s := by
    rw [lastPart, ← List.reverse_append, List.takeWhile_append_dropWhile, List.reverse_reverse]
  have hnone : ∀ c ∈ lastPart sep s, sep c = false := fun c hc => sep_of_mem_lastPart hc
  cases hrest : s.reverse.dropWhile fun c => !sep c with
  | nil =>
      rw [hrest, List.reverse_nil, List.nil_append] at hcut
      rw [hcut] at hnone ⊢
      rw [splitOn_of_none hnone, List.getLast?_singleton]
  | cons c rest =>
      have hc := List.head?_dropWhile_not (fun c => !sep c) s.reverse
      rw [hrest] at hc hcut
      rw [List.reverse_cons, List.append_assoc, List.singleton_append] at hcut
      have hsplit := splitOn_append_separator (by simpa using hc) rest.reverse (lastPart sep s)
      rw [hcut, splitOn_of_none hnone] at hsplit
      rw [hsplit, List.getLast?_append, List.getLast?_singleton]
      rfl

end Separators

end CodeReview.Text

import CodeReview.Json.Token
import Mathlib.Data.List.TakeWhile
import Mathlib.Tactic

/-!
# The grammar of numbers

The grammar is used from both sides.  The lexer has to know that a numeral holds no character that
would end a number early (`isNumber_cases`); a writer has to know from what parts a numeral may be
put together (`isNumber_whole`, `isNumberTail_point`, `isExponent_append`).
-/

namespace CodeReview.Json

variable {s tail places : List Char}

/-! ### The sign -/

/-- The grammar of numbers without a sign. -/
def isUnsigned : List Char → Bool
  | '0' :: rest => isNumberTail rest
  | c :: rest => c.isDigit && isNumberTail (rest.dropWhile Char.isDigit)
  | [] => false

/-- Behind a minus sign stands a number without a sign. -/
lemma isNumber_minus (s : List Char) : isNumber ('-' :: s) = isUnsigned s := rfl

/-- A number that does not start with a minus sign is one without a sign. -/
lemma isNumber_eq_isUnsigned (hminus : s.head? ≠ some '-') : isNumber s = isUnsigned s := by
  unfold isNumber
  split
  · exact absurd rfl hminus
  · rfl

/-! ### What a numeral is made of -/

/-- Digits stand in numbers. -/
lemma inNumber_of_isDigit {c : Char} (h : c.isDigit = true) : inNumber c = true := by
  simp [inNumber, h]

/-- Digits in front of characters of numbers are characters of numbers. -/
lemma inNumber_of_dropWhile (h : ∀ c ∈ s.dropWhile Char.isDigit, inNumber c = true) :
    ∀ c ∈ s, inNumber c = true := by
  intro c hc
  rw [← List.takeWhile_append_dropWhile (p := Char.isDigit) (l := s)] at hc
  rcases List.mem_append.mp hc with hc | hc
  · exact inNumber_of_isDigit (List.mem_takeWhile_imp hc)
  · exact h c hc

/-- A row of digits has characters of numbers only. -/
lemma inNumber_of_allDigits (h : allDigits s = true) : ∀ c ∈ s, inNumber c = true := by
  rw [allDigits, Bool.and_eq_true] at h
  exact fun c hc => inNumber_of_isDigit (List.all_eq_true.mp h.2 c hc)

/-- An exponent has characters of numbers only. -/
lemma inNumber_of_isExponent (h : isExponent s = true) : ∀ c ∈ s, inNumber c = true := by
  cases s with
  | nil => simp
  | cons e rest =>
      unfold isExponent at h
      rw [Bool.and_eq_true, Bool.or_eq_true, beq_iff_eq, beq_iff_eq] at h
      obtain ⟨he, hrest⟩ := h
      refine List.forall_mem_cons.mpr ⟨?_, ?_⟩
      · rcases he with rfl | rfl
        · rfl
        · rfl
      · split at hrest
        · exact List.forall_mem_cons.mpr ⟨rfl, inNumber_of_allDigits hrest⟩
        · exact List.forall_mem_cons.mpr ⟨rfl, inNumber_of_allDigits hrest⟩
        · exact inNumber_of_allDigits hrest

/-- What may follow the whole part has characters of numbers only. -/
lemma inNumber_of_isNumberTail (h : isNumberTail s = true) : ∀ c ∈ s, inNumber c = true := by
  unfold isNumberTail at h
  split at h
  · rw [Bool.and_eq_true] at h
    exact List.forall_mem_cons.mpr ⟨rfl, inNumber_of_dropWhile (inNumber_of_isExponent h.2)⟩
  · exact inNumber_of_isExponent h

/-- A number without a sign begins with a digit and goes on with characters of numbers. -/
lemma isUnsigned_cases (h : isUnsigned s = true) : ∃ c rest, s = c :: rest ∧
    c.isDigit = true ∧ ∀ d ∈ rest, inNumber d = true := by
  unfold isUnsigned at h
  split at h
  · exact ⟨_, _, rfl, rfl, inNumber_of_isNumberTail h⟩
  · rw [Bool.and_eq_true] at h
    exact ⟨_, _, rfl, h.1, inNumber_of_dropWhile (inNumber_of_isNumberTail h.2)⟩
  · cases h

/-- A numeral begins as one and goes on as one. -/
lemma isNumber_cases (h : isNumber s = true) : ∃ c rest, s = c :: rest ∧
    (c == '-' || c.isDigit) = true ∧ ∀ d ∈ rest, inNumber d = true := by
  by_cases hminus : s.head? = some '-'
  · obtain ⟨body, rfl⟩ := List.head?_eq_some_iff.mp hminus
    obtain ⟨c, rest, rfl, hc, hrest⟩ := isUnsigned_cases (isNumber_minus body ▸ h)
    exact ⟨'-', c :: rest, rfl, rfl, List.forall_mem_cons.mpr ⟨inNumber_of_isDigit hc, hrest⟩⟩
  · rw [isNumber_eq_isUnsigned hminus] at h
    obtain ⟨c, rest, rfl, hc, hrest⟩ := isUnsigned_cases h
    exact ⟨c, rest, rfl, by rw [hc, Bool.or_true], hrest⟩

/-! ### Putting a numeral together -/

/-- Digits of which the first is not zero. -/
structure IsWhole (s : List Char) : Prop where
  digits : ∀ c ∈ s, c.isDigit = true
  nonempty : s ≠ []
  head : s.head? ≠ some '0'

/-- A whole part that is cut short, but not to nothing, is one still. -/
lemma IsWhole.take (hs : IsWhole s) {n : ℕ} (hn : n ≠ 0) : IsWhole (s.take n) := by
  refine ⟨fun c hc => hs.digits c (List.mem_of_mem_take hc), ?_, ?_⟩
  · rw [ne_eq, List.take_eq_nil_iff]
    exact not_or.mpr ⟨hn, hs.nonempty⟩
  · rw [List.head?_take, if_neg hn]
    exact hs.head

/-- What comes next is no digit. -/
def StopsDigits (tail : List Char) : Prop := ∀ c ∈ tail.head?, c.isDigit = false

/-- Digits stop at the end. -/
lemma stopsDigits_nil : StopsDigits [] := by simp [StopsDigits]

/-- Digits stop at a character that is none. -/
lemma stopsDigits_cons {c : Char} (h : c.isDigit = false) : StopsDigits (c :: tail) := by
  simpa [StopsDigits] using h

/-- Dropping a row of digits leaves what stopped it. -/
lemma dropWhile_isDigit_append (hs : ∀ c ∈ s, c.isDigit = true) (htail : StopsDigits tail) :
    (s ++ tail).dropWhile Char.isDigit = tail := by
  rw [List.dropWhile_append_of_pos hs]
  cases tail with
  | nil => rfl
  | cons c tail => exact List.dropWhile_cons_of_neg (by simp [htail c rfl])

/-- Taking a row of digits leaves out what stopped it. -/
lemma takeWhile_isDigit_append (hs : ∀ c ∈ s, c.isDigit = true) (htail : StopsDigits tail) :
    (s ++ tail).takeWhile Char.isDigit = s := by
  rw [List.takeWhile_append_of_pos hs]
  cases tail with
  | nil => simp
  | cons c tail => rw [List.takeWhile_cons_of_neg (by simp [htail c rfl]), List.append_nil]

/-- A whole part that does not begin with zero, and what may follow it. -/
lemma isUnsigned_whole (hs : IsWhole s) (htail : isNumberTail tail = true)
    (hstop : StopsDigits tail) : isUnsigned (s ++ tail) = true := by
  obtain ⟨c, rest, rfl⟩ := List.exists_cons_of_ne_nil hs.nonempty
  obtain ⟨hc, hrest⟩ := List.forall_mem_cons.mp hs.digits
  have hzero : c ≠ '0' := by simpa using hs.head
  rw [List.cons_append]
  unfold isUnsigned
  split
  · rename_i heq
    exact absurd (List.cons.inj heq).1 hzero
  · rename_i heq
    obtain ⟨rfl, rfl⟩ := List.cons.inj heq
    rw [hc, dropWhile_isDigit_append hrest hstop, htail]
    rfl
  · rename_i heq
    cases heq

/-- A whole part of zero, and what may follow it. -/
lemma isUnsigned_zero (htail : isNumberTail tail = true) : isUnsigned ('0' :: tail) = true := htail

/-- A point, digits and an exponent or nothing may follow the whole part. -/
lemma isNumberTail_point (hne : places ≠ []) (hplaces : ∀ c ∈ places, c.isDigit = true)
    (htail : isExponent tail = true) (hstop : StopsDigits tail) :
    isNumberTail ('.' :: (places ++ tail)) = true := by
  rw [isNumberTail, takeWhile_isDigit_append hplaces hstop, dropWhile_isDigit_append hplaces hstop,
    htail]
  simpa using hne

/-- An exponent is the letter, a sign and digits. -/
lemma isExponent_cons {sign : Char} (hsign : sign = '+' ∨ sign = '-') (hs : allDigits s = true) :
    isExponent ('e' :: sign :: s) = true := by
  rcases hsign with rfl | rfl
  · exact hs
  · exact hs

/-- A minus sign may come before a number that has none. -/
lemma isNumber_sign (negative : Bool) (h : isUnsigned s = true) :
    isNumber ((if negative then ['-'] else []) ++ s) = true := by
  cases negative with
  | true => exact h
  | false =>
      have hhead : s.head? ≠ some '-' := by
        obtain ⟨c, rest, rfl, hc, -⟩ := isUnsigned_cases h
        rintro ⟨⟩
        cases hc
      exact (isNumber_eq_isUnsigned hhead).trans h

end CodeReview.Json

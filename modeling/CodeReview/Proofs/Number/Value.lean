import CodeReview.Proofs.Number.Numeral

/-!
# What a numeral says

A numeral says a rational number (`valueOf?`), which is read off its characters alone: a sign, the
digits, and the power of ten that the point and the exponent make up.

A single is written in one of three ways, and all of them say the digits of its shortest decimal
number times the power of ten that belongs to them (`Single.valueOf?_jsonText`).  That number is not
above one where the single is not (`Single.value_shortest_le_one`): below one the search for it
begins on a grid of tenths or finer, and one itself lies on every such grid, so that no point above
one is ever taken.
-/

namespace CodeReview.Number

open CodeReview.Json

variable {s ds tail places : List Char} {k : ℤ}

/-! ### The number that a numeral says -/

/-- The rational number that a decimal number stands for. -/
def Decimal.value (d : Decimal) : ℚ := d.significand * (10 : ℚ) ^ d.exponent

/-- The number that a numeral says. -/
def valueOf? (s : List Char) : Option ℚ :=
  (Decimal.ofChars? (Single.signed s).2).map fun d =>
    if (Single.signed s).1 then -d.value else d.value

/-- A decimal number without a sign is not negative. -/
lemma Decimal.value_nonneg (d : Decimal) : 0 ≤ d.value := by
  unfold value
  positivity

/-- A power of ten may stand with the significand or with the exponent. -/
lemma Decimal.value_shifted {n : ℕ} (hk : 0 ≤ k) :
    (⟨10 ^ (k.toNat + 1) * n, -1⟩ : Decimal).value = (⟨n, k⟩ : Decimal).value := by
  obtain ⟨m, rfl⟩ := Int.eq_ofNat_of_zero_le hk
  unfold value
  push_cast [Int.toNat_natCast]
  rw [zpow_natCast, zpow_neg_one, pow_succ]
  ring

/-! ### Digits -/

/-- A number is read back from its digits. -/
lemma ofDigits_digits (n : ℕ) : ofDigits (digits n) = n := Nat.ofDigitChars_ten_toDigits

/-- Zeros behind digits multiply by powers of ten. -/
lemma ofDigits_zeros_after (ds : List Char) (n : ℕ) :
    ofDigits (ds ++ List.replicate n '0') = 10 ^ n * ofDigits ds := by
  have happend : ofDigits (ds ++ List.replicate n '0') =
      Nat.ofDigitChars 10 (List.replicate n '0') (ofDigits ds) := Nat.ofDigitChars_append 0
  rw [happend, Nat.ofDigitChars_replicate_zero]

/-- Zeros in front of digits do not change the number. -/
lemma ofDigits_zeros_before (n : ℕ) (ds : List Char) :
    ofDigits (List.replicate n '0' ++ ds) = ofDigits ds := by
  have happend : ofDigits (List.replicate n '0' ++ ds) =
      Nat.ofDigitChars 10 ds (Nat.ofDigitChars 10 (List.replicate n '0') 0) :=
    Nat.ofDigitChars_append 0
  rw [happend, Nat.ofDigitChars_replicate_zero, Nat.mul_zero]
  rfl

/-- Zero is a digit. -/
lemma isDigit_of_mem_zero : ∀ c ∈ ['0'], c.isDigit = true := List.forall_mem_singleton.mpr rfl

/-! ### Reading the parts of a numeral -/

namespace Decimal

variable {n : ℤ}

/-- Digits without a point. -/
lemma ofChars?_whole (hs : IsWhole s) (hstop : StopsDigits tail) (hpoint : tail.head? ≠ some '.')
    (htail : exponent? tail = some n) : ofChars? (s ++ tail) = some ⟨ofDigits s, n⟩ := by
  have hempty : s.isEmpty = false := by simpa using hs.nonempty
  unfold ofChars?
  rw [takeWhile_isDigit_append hs.digits hstop, dropWhile_isDigit_append hs.digits hstop]
  dsimp only
  split
  · exact absurd rfl hpoint
  · simp [hempty, htail]

/-- Digits around a point. -/
lemma ofChars?_point (hs : ∀ c ∈ s, c.isDigit = true) (hne : s ≠ [])
    (hplaces : ∀ c ∈ places, c.isDigit = true) (hstop : StopsDigits tail)
    (htail : exponent? tail = some n) (hk : n - places.length = k) :
    ofChars? (s ++ '.' :: (places ++ tail)) = some ⟨ofDigits (s ++ places), k⟩ := by
  have hempty : s.isEmpty = false := by simpa using hne
  unfold ofChars?
  rw [takeWhile_isDigit_append hs (stopsDigits_cons rfl),
    dropWhile_isDigit_append hs (stopsDigits_cons rfl)]
  simp only [takeWhile_isDigit_append hplaces hstop, dropWhile_isDigit_append hplaces hstop, hempty,
    htail, hk, Bool.false_and, Bool.false_eq_true, if_false, Option.map_some]

/-- Digits around a point, and no exponent. -/
lemma ofChars?_places (hs : ∀ c ∈ s, c.isDigit = true) (hne : s ≠ [])
    (hplaces : ∀ c ∈ places, c.isDigit = true) (hk : -(places.length : ℤ) = k) :
    ofChars? (s ++ '.' :: places) = some ⟨ofDigits (s ++ places), k⟩ := by
  have hread := ofChars?_point hs hne hplaces stopsDigits_nil rfl ((Int.zero_sub _).trans hk)
  rwa [List.append_nil] at hread

/-- An exponent with a plus sign is read back. -/
lemma exponent?_plus (n : ℕ) : exponent? ('e' :: '+' :: digits n) = some (n : ℤ) := by
  have hall := allDigits_digits n
  rw [allDigits, Bool.and_eq_true, Bool.not_eq_true'] at hall
  simp [exponent?, hall.1, hall.2, ofDigits_digits]

/-- An exponent with a minus sign is read back. -/
lemma exponent?_minus (n : ℕ) : exponent? ('e' :: '-' :: digits n) = some (-(n : ℤ)) := by
  have hall := allDigits_digits n
  rw [allDigits, Bool.and_eq_true, Bool.not_eq_true'] at hall
  simp [exponent?, hall.1, hall.2, ofDigits_digits]

end Decimal

namespace Single

/-! ### The written forms -/

/-- A whole number is written with a point and a zero. -/
lemma ofChars?_positional_point (hds : IsWhole ds) (hk : 0 ≤ k) :
    Decimal.ofChars? (positional ds k ++ ['.', '0']) =
      some ⟨10 ^ (k.toNat + 1) * ofDigits ds, -1⟩ := by
  have hwhole := isWhole_positional hds hk
  have hzeros : positional ds k ++ ['0'] = ds ++ List.replicate (k.toNat + 1) '0' := by
    rw [positional, if_pos hk, List.append_assoc, List.replicate_succ']
  rw [← ofDigits_zeros_after, ← hzeros]
  exact Decimal.ofChars?_places hwhole.digits hwhole.nonempty isDigit_of_mem_zero rfl

/-- A number with places after the point. -/
lemma ofChars?_positional (hds : IsWhole ds) (hk : ¬ 0 ≤ k) :
    Decimal.ofChars? (positional ds k) = some ⟨ofDigits ds, k⟩ := by
  rw [positional, if_neg hk]
  dsimp only
  split_ifs with hlt
  · -- the point stands within the digits
    have hfirst : IsWhole (ds.take (ds.length - (-k).toNat)) := hds.take (by omega)
    have hplaces : -((ds.drop (ds.length - (-k).toNat)).length : ℤ) = k := by
      rw [List.length_drop]
      omega
    have hread := Decimal.ofChars?_places hfirst.digits hfirst.nonempty
      (fun c hc => hds.digits c (List.mem_of_mem_drop hc)) hplaces
    rwa [List.take_append_drop] at hread
  · -- the point and zeros stand before the digits
    have hdigits : ∀ c ∈ List.replicate ((-k).toNat - ds.length) '0' ++ ds, c.isDigit = true := by
      intro c hc
      rcases List.mem_append.mp hc with hc | hc
      · rw [List.eq_of_mem_replicate hc]
        rfl
      · exact hds.digits c hc
    have hplaces :
        -((List.replicate ((-k).toNat - ds.length) '0' ++ ds).length : ℤ) = k := by
      rw [List.length_append, List.length_replicate]
      omega
    have hread := Decimal.ofChars?_places isDigit_of_mem_zero (List.cons_ne_nil _ _) hdigits hplaces
    have hzeros := ofDigits_zeros_before ((-k).toNat - ds.length + 1) ds
    rw [List.replicate_succ] at hzeros
    rw [← hzeros]
    exact hread

/-- A number with one digit before the point and an exponent. -/
lemma ofChars?_exponent {e : List Char} {n : ℤ} (he : Decimal.exponent? ('e' :: e) = some n) :
    IsWhole ds → n = ds.length + k - 1 → Decimal.ofChars? (match ds with
      | [d] => d :: 'e' :: e
      | d :: rest => d :: '.' :: rest ++ 'e' :: e
      | [] => []) = some ⟨ofDigits ds, k⟩ := by
  intro hds hn
  match ds, hds with
  | [], hds => exact absurd rfl hds.nonempty
  | [d], hds =>
      obtain rfl : n = k := by
        rw [hn, List.length_singleton]
        omega
      exact Decimal.ofChars?_whole hds (stopsDigits_cons rfl) (by simp) he
  | d :: c :: rest, hds =>
      have hfirst : IsWhole [d] := hds.take Nat.one_ne_zero
      have hplaces : n - (c :: rest).length = k := by
        rw [hn, List.length_cons]
        omega
      exact Decimal.ofChars?_point hfirst.digits hfirst.nonempty
        (List.forall_mem_cons.mp hds.digits).2 (stopsDigits_cons rfl) he hplaces

/-- The decimal number that a positive magnitude is written as. -/
def written (n : ℕ) : Decimal := stripZeros 60 (Format.single.shortest n)

/-- The digits that are written do not begin with zero. -/
lemma isWhole_written {n : ℕ} (hn : n ≠ 0) : IsWhole (digits (written n).significand) :=
  isWhole_shortest hn

/-- A sign before a number that has none. -/
lemma valueOf?_signText (negative : Bool) {body : List Char} {q : ℚ}
    (h : ∃ d, Decimal.ofChars? body = some d ∧ d.value = q) :
    valueOf? (signText negative ++ String.ofList body).toList =
      some (if negative then -q else q) := by
  obtain ⟨d, hd, rfl⟩ := h
  have hsigned : signed (signText negative ++ String.ofList body).toList = (negative, body) := by
    rw [String.toList_append, String.toList_ofList]
    cases negative with
    | true => rfl
    | false =>
        have htext : (signText false).toList ++ body = body := rfl
        rw [htext]
        -- a numeral without a sign does not begin with one
        unfold signed
        split
        · cases hd
        · cases hd
        · rfl
  rw [valueOf?, hsigned]
  simp only [hd, Option.map_some]

/-- **All written forms say the same number**, up to the sign of the single. -/
lemma valueOf?_jsonText (negative : Bool) {n : ℕ} (hn : n ≠ 0) :
    ∃ t, (finite negative n).jsonText? = some t ∧ valueOf? t.toList =
      some (if negative then -(written n).value else (written n).value) := by
  have hds := isWhole_written hn
  have hsaid : (written n).value =
      (⟨ofDigits (digits (written n).significand), (written n).exponent⟩ : Decimal).value := by
    rw [ofDigits_digits]
  rw [hsaid]
  have hshortest : shortest n = (digits (written n).significand, (written n).exponent) := rfl
  generalize digits (written n).significand = ds at hds hshortest ⊢
  generalize (written n).exponent = k at hshortest ⊢
  rw [jsonText?, hshortest]
  case x_1 => exact hn
  refine ⟨_, rfl, valueOf?_signText negative ?_⟩
  dsimp only
  split_ifs with hwhole hplain hpos
  · rw [Bool.and_eq_true, decide_eq_true_eq] at hwhole
    exact ⟨_, ofChars?_positional_point hds hwhole.1, Decimal.value_shifted hwhole.1⟩
  · rw [Bool.and_eq_true, decide_eq_true_eq, decide_eq_true_eq] at hwhole hplain
    exact ⟨_, ofChars?_positional hds fun hk => hwhole ⟨hk, hplain.2⟩, rfl⟩
  · refine ⟨_, ofChars?_exponent (Decimal.exponent?_plus _) hds ?_, rfl⟩
    omega
  · refine ⟨_, ofChars?_exponent (Decimal.exponent?_minus _) hds ?_, rfl⟩
    omega

end Single

/-! ### Not above one -/

/-- A number has no more digits than a greater one. -/
lemma length_digits_mono {m n : ℕ} (h : m ≤ n) : (digits m).length ≤ (digits n).length :=
  (Nat.length_toDigits_le_iff (by decide) (List.length_pos_of_ne_nil (digits_ne_nil n))).mpr
    (h.trans_lt (lt_pow_length_digits n))

/-- A quotient that is not above one has no places before the point. -/
lemma log10_nonpos {num den : ℕ} (h : num ≤ den) : log10 num den ≤ 0 := by
  have hlength := length_digits_mono h
  unfold log10
  dsimp only
  split_ifs <;> omega

/-- Rounding to the nearest is at most one above rounding down. -/
lemma roundDiv_le_succ (num den : ℕ) : roundDiv num den ≤ num / den + 1 := by
  unfold roundDiv
  dsimp only
  split_ifs
  · exact le_rfl
  · exact Nat.le_succ _

/-- One lies on every grid of tenths and finer. -/
lemma Decimal.value_le_one {d : Decimal} (hexp : d.exponent ≤ 0)
    (h : d.significand ≤ 10 ^ (-d.exponent).toNat) : d.value ≤ 1 := by
  obtain ⟨n, hn⟩ := Int.eq_ofNat_of_zero_le (Int.neg_nonneg_of_nonpos hexp)
  have hexp : d.exponent = -(n : ℤ) := by omega
  rw [hn, Int.toNat_natCast] at h
  have hcast : (d.significand : ℚ) ≤ 10 ^ n := by exact_mod_cast h
  rw [value, hexp, zpow_neg, zpow_natCast, ← div_eq_mul_inv]
  exact (div_le_one (by positivity)).mpr hcast

/-- The search for a number below one ends at a number that is not above one. -/
lemma value_shortestFrom_le_one {low mid high den : ℕ} {closed : Bool} (h : mid < den) (hk : k ≤ 0)
    (fuel : ℕ) : (shortestFrom low mid high den closed fuel k).value ≤ 1 := by
  -- on no grid does the point above the number lie above one
  have hgrid : ∀ k : ℤ, k ≤ 0 →
      mid * Nat.pow 10 (-k).toNat / (den * Nat.pow 10 k.toNat) + 1 ≤ 10 ^ (-k).toNat := by
    intro k hk
    have hstep : k.toNat = 0 := by omega
    have hup : 0 < 10 ^ (-k).toNat := Nat.pow_pos (by decide)
    rw [hstep]
    refine Nat.succ_le_of_lt (Nat.div_lt_of_lt_mul ?_)
    simpa using Nat.mul_lt_mul_of_pos_right h hup
  induction fuel generalizing k with
  | zero => exact Decimal.value_le_one hk ((roundDiv_le_succ _ _).trans (hgrid k hk))
  | succ fuel ih =>
      unfold shortestFrom
      dsimp only
      split
      · exact ih (by omega)
      · exact Decimal.value_le_one hk ((Nat.le_succ _).trans (hgrid k hk))
      · exact Decimal.value_le_one hk (hgrid k hk)
      · exact Decimal.value_le_one hk ((roundDiv_le_succ _ _).trans (hgrid k hk))

namespace Single

/-- Stripping zeros off the end does not change the value. -/
lemma value_stripZeros (fuel : ℕ) (d : Decimal) : (stripZeros fuel d).value = d.value := by
  induction fuel generalizing d with
  | zero => rfl
  | succ fuel ih =>
      unfold stripZeros
      split_ifs with hzeros
      · rw [Bool.and_eq_true, beq_iff_eq] at hzeros
        have hten : 10 * (d.significand / 10) = d.significand :=
          Nat.mul_div_cancel' (Nat.dvd_of_mod_eq_zero hzeros.1)
        have hcast : (10 : ℚ) * (d.significand / 10 : ℕ) = d.significand := by exact_mod_cast hten
        rw [ih, Decimal.value, Decimal.value, zpow_add_one₀ (by decide), ← hcast]
        ring
      · rfl

/-- **The number that a single is written as is not above one if the single is not.** -/
lemma value_written_le_one {n : ℕ} (h : n ≤ unitsPerOne) : (written n).value ≤ 1 := by
  rw [written, value_stripZeros]
  rcases h.eq_or_lt with rfl | hlt
  · have hone : Format.single.shortest unitsPerOne = ⟨1, 0⟩ := by decide +kernel
    rw [hone]
    exact Decimal.value_le_one le_rfl le_rfl
  · have hquotient : 4 * n < 4 * Nat.pow 2 Format.single.unitBits :=
      Nat.mul_lt_mul_of_pos_left hlt (by decide)
    exact value_shortestFrom_le_one hquotient (log10_nonpos hquotient.le) 20

/-- **A single between zero and one is written as a numeral that says a number between zero and
one.** -/
lemma exists_jsonText {x : Single} (h : x.inUnitInterval = true) :
    ∃ t q, x.jsonText? = some t ∧ valueOf? t.toList = some q ∧ 0 ≤ q ∧ q ≤ 1 := by
  cases x with
  | nan => cases h
  | infinite negative => cases h
  | finite negative n =>
      rcases eq_or_ne n 0 with rfl | hn
      · have hread : Decimal.ofChars? ['0', '.', '0'] = some ⟨0, -1⟩ := rfl
        have hzero : (⟨0, -1⟩ : Decimal).value = 0 := by simp [Decimal.value]
        refine ⟨_, _, rfl, valueOf?_signText negative ⟨_, hread, hzero⟩, ?_, ?_⟩
        · cases negative <;> simp
        · cases negative <;> simp
      · obtain ⟨t, ht, hvalue⟩ := valueOf?_jsonText negative hn
        rw [inUnitInterval] at h
        simp only [Bool.or_eq_true, Bool.and_eq_true, Bool.not_eq_true', decide_eq_true_eq,
          beq_iff_eq, hn, or_false] at h
        obtain ⟨rfl, hle⟩ := h
        exact ⟨t, _, ht, hvalue, Decimal.value_nonneg _, value_written_le_one hle⟩

end Single

end CodeReview.Number

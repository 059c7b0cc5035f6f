import CodeReview.Number.Single
import CodeReview.Proofs.Json.Numeral

/-!
# Numerals are JSON numbers

The digits of a whole number and the shortest numeral of a single stand in the grammar of JSON
numbers (`isNumber_toString`, `Single.isNumber_jsonText`).

That grammar has one rule which the writer does not check anywhere: no zero may come first, except
alone or before the point.  It is kept because the shortest decimal number of a positive magnitude
is not zero.  The search for it starts at a power of ten that the magnitude reaches
(`log10_reached`) and goes on to smaller ones only, so that on every grid it tries the magnitude
lies above the first point (`shortestFrom_ne_zero`).
-/

namespace CodeReview.Number

open CodeReview.Json

/-! ### Digits -/

/-- The digits of a number are digits. -/
lemma isDigit_of_mem_digits {n : ℕ} {c : Char} (h : c ∈ digits n) : c.isDigit = true :=
  Nat.isDigit_of_mem_toDigits (by decide) (by decide) h

/-- The digits of a number are digits, checked one by one. -/
lemma all_isDigit_digits (n : ℕ) : (digits n).all Char.isDigit = true :=
  List.all_eq_true.mpr fun _ hc => isDigit_of_mem_digits hc

/-- Every number has digits. -/
lemma digits_ne_nil (n : ℕ) : digits n ≠ [] := Nat.toDigits_ne_nil

/-- The digits of a number are a row of digits. -/
lemma allDigits_digits (n : ℕ) : allDigits (digits n) = true := by
  rw [allDigits, Bool.and_eq_true]
  exact ⟨by simpa using digits_ne_nil n, all_isDigit_digits n⟩

/-- The digits of a number that is not zero do not begin with zero. -/
lemma isWhole_digits {n : ℕ} (hn : n ≠ 0) : IsWhole (digits n) := by
  refine ⟨fun c hc => isDigit_of_mem_digits hc, digits_ne_nil n, ?_⟩
  induction n using Nat.strong_induction_on with
  | _ n ih =>
      rw [digits, Nat.toDigits_eq_if (by decide)]
      split_ifs with hlt
      · simpa [Nat.digitChar_eq_zero] using hn
      · have hhead := ih (n / 10) (by omega) (by omega)
        rwa [List.head?_append_of_ne_nil _ Nat.toDigits_ne_nil]

/-- A whole number is written as a numeral. -/
lemma isNumber_toString (n : ℕ) : isNumber (toString n).toList = true := by
  rw [Nat.toString_eq_ofList_toDigits, String.toList_ofList]
  by_cases hn : n = 0
  · rw [hn]
    rfl
  · have hwhole := isUnsigned_whole (isWhole_digits hn) rfl stopsDigits_nil
    rw [List.append_nil] at hwhole
    exact isNumber_sign false hwhole

/-! ### The shortest decimal number is not zero -/

/-- The number `mid / den` reaches the power of ten with exponent `k`. -/
def Reaches (mid den : ℕ) (k : ℤ) : Prop := den * 10 ^ k.toNat ≤ mid * 10 ^ (-k).toNat

/-- What reaches a power of ten reaches the one below it. -/
lemma Reaches.pred {mid den : ℕ} {k : ℤ} (h : Reaches mid den k) : Reaches mid den (k - 1) := by
  unfold Reaches at h ⊢
  rcases lt_or_ge 0 k with hk | hk
  · have hdown : (k - 1).toNat ≤ k.toNat := by omega
    have hup : (-k).toNat = (-(k - 1)).toNat := by omega
    rw [← hup]
    exact (Nat.mul_le_mul_left den (Nat.pow_le_pow_right (by decide) hdown)).trans h
  · have hdown : (k - 1).toNat = k.toNat := by omega
    have hup : (-k).toNat ≤ (-(k - 1)).toNat := by omega
    rw [hdown]
    exact h.trans (Nat.mul_le_mul_left mid (Nat.pow_le_pow_right (by decide) hup))

/-- A number is less than the power of ten with as many zeros as it has digits. -/
lemma lt_pow_length_digits (n : ℕ) : n < 10 ^ (digits n).length :=
  (Nat.length_toDigits_le_iff (by decide) (List.length_pos_of_ne_nil (digits_ne_nil n))).mp le_rfl

/-- A number other than zero is not less than the power of ten with one zero fewer than it has
digits. -/
lemma pow_length_digits_le {n : ℕ} (hn : n ≠ 0) : 10 ^ ((digits n).length - 1) ≤ n := by
  by_contra hlt
  rcases Nat.eq_zero_or_pos ((digits n).length - 1) with hone | hpos
  · rw [hone] at hlt
    omega
  · have hle := (Nat.length_toDigits_le_iff (by decide) hpos).mpr (Nat.lt_of_not_le hlt)
    change (digits n).length ≤ (digits n).length - 1 at hle
    omega

/-- A quotient reaches its order of magnitude. -/
lemma log10_reached {num : ℕ} (den : ℕ) (hnum : num ≠ 0) : Reaches num den (log10 num den) := by
  unfold log10 Reaches
  dsimp only
  split_ifs with hreach
  · have hdown : ((digits num).length - (digits den).length : ℤ).toNat =
        (digits num).length - (digits den).length := by omega
    have hup : (-((digits num).length - (digits den).length : ℤ)).toNat =
        (digits den).length - (digits num).length := by omega
    rw [hdown, hup]
    exact hreach
  · have hpos : 0 < (digits num).length := List.length_pos_of_ne_nil (digits_ne_nil num)
    generalize hdown : ((digits num).length - (digits den).length - 1 : ℤ).toNat = down
    generalize hup : (-((digits num).length - (digits den).length - 1 : ℤ)).toNat = up
    have hexp : (digits den).length + down = (digits num).length - 1 + up := by omega
    calc den * 10 ^ down
        ≤ 10 ^ (digits den).length * 10 ^ down :=
          Nat.mul_le_mul_right _ (lt_pow_length_digits den).le
      _ = 10 ^ ((digits num).length - 1) * 10 ^ up := by rw [← pow_add, hexp, pow_add]
      _ ≤ num * 10 ^ up := Nat.mul_le_mul_right _ (pow_length_digits_le hnum)

/-- Rounding to the nearest is not below rounding down. -/
lemma div_le_roundDiv (num den : ℕ) : num / den ≤ roundDiv num den := by
  unfold roundDiv
  dsimp only
  split_ifs
  · exact Nat.le_succ _
  · exact le_rfl

/-- The search for a short decimal number does not come to zero from what reaches its power of
ten. -/
lemma shortestFrom_ne_zero {low mid high den : ℕ} {closed : Bool} (hden : 0 < den) {k : ℤ}
    (h : Reaches mid den k) (fuel : ℕ) :
    (shortestFrom low mid high den closed fuel k).significand ≠ 0 := by
  have hbelow : ∀ k : ℤ, Reaches mid den k →
      mid * Nat.pow 10 (-k).toNat / (den * Nat.pow 10 k.toNat) ≠ 0 := fun k hk =>
    (Nat.div_pos hk (Nat.mul_pos hden (Nat.pow_pos (by decide)))).ne'
  have hround : ∀ k : ℤ, Reaches mid den k →
      roundDiv (mid * Nat.pow 10 (-k).toNat) (den * Nat.pow 10 k.toNat) ≠ 0 := fun k hk =>
    ((Nat.pos_of_ne_zero (hbelow k hk)).trans_le (div_le_roundDiv _ _)).ne'
  induction fuel generalizing k with
  | zero => exact hround k h
  | succ fuel ih =>
      unfold shortestFrom
      dsimp only
      split
      · exact ih h.pred
      · exact hbelow k h
      · exact Nat.succ_ne_zero _
      · exact hround k h

/-- The shortest decimal number for a number other than zero is not zero. -/
lemma shortest_ne_zero (f : Format) {n : ℕ} (hn : n ≠ 0) : (f.shortest n).significand ≠ 0 := by
  have hden : 0 < 4 * Nat.pow 2 f.unitBits := Nat.mul_pos (by decide) (Nat.pow_pos (by decide))
  exact shortestFrom_ne_zero hden (log10_reached _ (by omega)) 20

namespace Single

/-- A number other than zero is not zero without the zeros at its end. -/
lemma stripZeros_ne_zero {d : Decimal} (hd : d.significand ≠ 0) (fuel : ℕ) :
    (stripZeros fuel d).significand ≠ 0 := by
  induction fuel generalizing d with
  | zero => exact hd
  | succ fuel ih =>
      unfold stripZeros
      split_ifs with hzeros
      · refine ih ?_
        rw [Bool.and_eq_true, beq_iff_eq] at hzeros
        dsimp only
        omega
      · exact hd

/-- The digits of the shortest numeral. -/
lemma isWhole_shortest {n : ℕ} (hn : n ≠ 0) : IsWhole (shortest n).1 :=
  isWhole_digits (stripZeros_ne_zero (shortest_ne_zero .single hn) 60)

/-! ### The written form -/

variable {ds : List Char} {k : ℤ}

/-- A whole number without exponent. -/
lemma isWhole_positional (hds : IsWhole ds) (hk : 0 ≤ k) : IsWhole (positional ds k) := by
  rw [positional, if_pos hk]
  refine ⟨fun c hc => ?_, by simp [hds.nonempty], ?_⟩
  · rcases List.mem_append.mp hc with hc | hc
    · exact hds.digits c hc
    · rw [List.eq_of_mem_replicate hc]
      rfl
  · rw [List.head?_append_of_ne_nil _ hds.nonempty]
    exact hds.head

/-- A number with places after the point. -/
lemma isUnsigned_positional (hds : IsWhole ds) (hk : ¬ 0 ≤ k) :
    isUnsigned (positional ds k) = true := by
  have hpoint : ∀ places : List Char, places ≠ [] → (∀ c ∈ places, c.isDigit = true) →
      isNumberTail ('.' :: places) = true := by
    intro places hne hplaces
    have htail := isNumberTail_point hne hplaces rfl stopsDigits_nil
    rwa [List.append_nil] at htail
  rw [positional, if_neg hk]
  dsimp only
  split_ifs with hlt
  · -- the point stands within the digits
    have hplaces : ds.drop (ds.length - (-k).toNat) ≠ [] := by
      rw [ne_eq, List.drop_eq_nil_iff]
      omega
    exact isUnsigned_whole (hds.take (by omega))
      (hpoint _ hplaces fun c hc => hds.digits c (List.mem_of_mem_drop hc)) (stopsDigits_cons rfl)
  · -- the point and zeros stand before the digits
    refine isUnsigned_zero (hpoint _ (by simp [hds.nonempty]) fun c hc => ?_)
    rcases List.mem_append.mp hc with hc | hc
    · rw [List.eq_of_mem_replicate hc]
      rfl
    · exact hds.digits c hc

/-- A number with one digit before the point and an exponent. -/
lemma isUnsigned_exponent {e : List Char} (he : isExponent ('e' :: e) = true) :
    IsWhole ds → isUnsigned (match ds with
      | [d] => d :: 'e' :: e
      | d :: rest => d :: '.' :: rest ++ 'e' :: e
      | [] => []) = true := by
  have hstop : StopsDigits ('e' :: e) := stopsDigits_cons rfl
  intro hds
  match ds, hds with
  | [], hds => exact absurd rfl hds.nonempty
  | [d], hds => exact isUnsigned_whole hds he hstop
  | d :: c :: rest, hds =>
      have hrest : ∀ a ∈ c :: rest, a.isDigit = true := (List.forall_mem_cons.mp hds.digits).2
      have htail := isNumberTail_point (List.cons_ne_nil c rest) hrest he hstop
      have hfirst : IsWhole [d] := hds.take Nat.one_ne_zero
      have hunsigned := isUnsigned_whole hfirst htail (stopsDigits_cons rfl)
      exact hunsigned

/-- **Every number that has a JSON form is written as a numeral.** -/
lemma isNumber_jsonText {x : Single} {t : String} (h : x.jsonText? = some t) :
    isNumber t.toList = true := by
  have hsign : ∀ (negative : Bool) (body : List Char), isUnsigned body = true →
      isNumber (signText negative ++ String.ofList body).toList = true := by
    intro negative body hbody
    have hnumber := isNumber_sign negative hbody
    cases negative with
    | true => simpa [signText] using hnumber
    | false => simpa [signText] using hnumber
  unfold jsonText? at h
  split at h
  · cases h
  · cases h
  · obtain rfl := Option.some.inj h
    exact hsign _ ['0', '.', '0'] rfl
  · rename_i n hn
    obtain rfl := Option.some.inj h
    have hds := isWhole_shortest hn
    refine hsign _ _ ?_
    split_ifs with hwhole hplain
    · rw [Bool.and_eq_true, decide_eq_true_eq] at hwhole
      have hpoint : isNumberTail ['.', '0'] = true := rfl
      exact isUnsigned_whole (isWhole_positional hds hwhole.1) hpoint (stopsDigits_cons rfl)
    · rw [Bool.and_eq_true, decide_eq_true_eq, decide_eq_true_eq] at hwhole hplain
      exact isUnsigned_positional hds fun hk => hwhole ⟨hk, hplain.2⟩
    · exact isUnsigned_exponent (isExponent_cons (.inl rfl) (allDigits_digits _)) hds
    · exact isUnsigned_exponent (isExponent_cons (.inr rfl) (allDigits_digits _)) hds

end Single

end CodeReview.Number

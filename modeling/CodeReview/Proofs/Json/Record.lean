import CodeReview.Json.Record
import CodeReview.Proofs.Number.Numeral
import Mathlib.Tactic

/-!
# What a record in JSON gives

`Gives` says which values stand in an object under the names of a record, without saying how they
are looked up: the members may come in any order, and there may be any others with them.
`Optionally` and `Listed` say the same of a field that may be left out.

Each of them comes with the lemma that the readers find what is given.  What a reader makes of a
value may be related to what the value stands for in any way (`Q`), as long as the reader keeps to
it for each single value.
-/

namespace CodeReview.Json

variable {α β : Type}

/-! ### Members of an object -/

/-- An object with these values under these names, and nothing under a name without value.  Under
other names it may have anything. -/
def Gives (fields : List (String × Option Value)) (v : Value) : Prop :=
  ∃ members, v = .object members ∧ (∀ m ∈ members, m.1.isSome = true) ∧
    ∀ f ∈ fields, (members.filter fun m => m.1 == some f.1).map (·.2) = f.2.toList

/-- A list is read item by item. -/
lemma mapM_eq_some {read : α → Option β} {xs : List α} {ys : List β}
    (h : List.Forall₂ (fun x y => read x = some y) xs ys) : xs.mapM read = some ys := by
  induction h with
  | nil => rfl
  | cons hread _ ih => rw [List.mapM_cons, hread, ih]; rfl

/-- A name that stands once, or never, in an object is found, or missed. -/
lemma memberOf?_of_filter {name : String} {members : List (Option String × Value)}
    {value : Option Value}
    (h : (members.filter fun m => m.1 == some name).map (·.2) = value.toList) :
    memberOf? name members = some value := by
  unfold memberOf?
  cases value with
  | none =>
      rw [Option.toList_none, List.map_eq_nil_iff] at h
      rw [h]
  | some v =>
      obtain ⟨m, hfilter, rfl⟩ := List.map_eq_singleton_iff.mp h
      rw [hfilter]

/-- The fields of a record are found in an object that gives them. -/
lemma fields?_of_gives {fields : List (String × Option Value)} {v : Value} (h : Gives fields v) :
    fields? (fields.map (·.1)) v = some (fields.map (·.2)) := by
  obtain ⟨members, rfl, hkeys, hvalues⟩ := h
  have hknown : (members.any fun m => m.1.isNone) = false := by
    rw [List.any_eq_false]
    intro m hm
    simp [Option.isSome_iff_ne_none.mp (hkeys m hm)]
  simp only [fields?, hknown, Bool.false_eq_true, if_false]
  apply mapM_eq_some
  rw [List.forall₂_map_left_iff, List.forall₂_map_right_iff, List.forall₂_same]
  intro f hf
  exact memberOf?_of_filter (hvalues f hf)

/-- An object is not null. -/
lemma Gives.ne_null {fields : List (String × Option Value)} {v : Value} (h : Gives fields v) :
    v ≠ .null := by
  obtain ⟨members, rfl, -⟩ := h
  exact Value.noConfusion

/-! ### Fields that may be left out -/

/-- A field that may be left out or null, and else holds a value that stands for something. -/
inductive Optionally (P : Value → α → Prop) : Option Value → Option α → Prop
  | absent : Optionally P none none
  | null : Optionally P (some .null) none
  | given {v : Value} {a : α} : P v a → Optionally P (some v) (some a)

/-- A field that may be left out, and else holds an array of values that stand for something. -/
inductive Listed (P : Value → α → Prop) : Option Value → List α → Prop
  | absent : Listed P none []
  | array {items : List Value} {as : List α} : List.Forall₂ P items as →
      Listed P (some (.array items)) as

section Readers

variable {P : Value → α → Prop} {read : Value → Option β} {Q : α → β → Prop} {field : Option Value}

/-- What is not null is read as if it could not be left out. -/
lemma asOptional?_of_ne_null {v : Value} (h : v ≠ .null) :
    asOptional? read v = (read v).map some := by
  cases v with
  | null => exact absurd rfl h
  | _ => rfl

/-- A field that may be left out is read as its value is. -/
lemma Optionally.reads {value : Option α} (h : Optionally P field value)
    (hread : ∀ {v a}, P v a → v ≠ .null ∧ ∃ b, read v = some b ∧ Q a b) :
    ∃ result, orElse? none (asOptional? read) field = some result ∧ Option.Rel Q value result := by
  cases h with
  | absent => exact ⟨none, rfl, .none⟩
  | null => exact ⟨none, rfl, .none⟩
  | given hgiven =>
      obtain ⟨hnull, b, hb, hq⟩ := hread hgiven
      refine ⟨some b, ?_, .some hq⟩
      rw [orElse?, asOptional?_of_ne_null hnull, hb, Option.map_some]

/-- A field with an array is read item by item. -/
lemma Listed.reads {as : List α} (h : Listed P field as)
    (hread : ∀ {v a}, P v a → ∃ b, read v = some b ∧ Q a b) :
    ∃ bs, orElse? [] (asList? read) field = some bs ∧ List.Forall₂ Q as bs := by
  cases h with
  | absent => exact ⟨[], rfl, .nil⟩
  | @array items as hitems =>
      rw [orElse?, asList?]
      induction hitems with
      | nil => exact ⟨[], rfl, .nil⟩
      | cons hitem _ ih =>
          obtain ⟨b, hb, hq⟩ := hread hitem
          obtain ⟨bs, hbs, hall⟩ := ih
          exact ⟨b :: bs, by rw [List.mapM_cons, hb, hbs]; rfl, .cons hq hall⟩

end Readers

/-! ### Texts and words -/

/-- The value is a text. -/
def IsText (v : Value) (s : String) : Prop := v = .text s

/-- A text that may be left out is read. -/
lemma Optionally.reads_text {field : Option Value} {value : Option String}
    (h : Optionally IsText field value) :
    orElse? none (asOptional? asText?) field = some value := by
  cases h with
  | absent => rfl
  | null => rfl
  | given htext =>
      obtain rfl := htext
      rfl

/-- A whole number below the bound is read as it is written. -/
lemma asWord?_nat {n : ℕ} (h : n < 2 ^ 32) : asWord? (.nat n) = some n := by
  have hdigits : (Nat.toDigits 10 n).all Char.isDigit = true := Number.all_isDigit_digits n
  have hvalue : (Nat.toDigits 10 n).foldl (fun n c => n * 10 + (c.toNat - 48)) 0 = n := by
    simp only [Nat.mul_comm _ 10]
    exact Nat.ofDigitChars_ten_toDigits
  have hbound : decide (n < Nat.pow 2 32) = true := decide_eq_true h
  rw [Value.nat, asWord?, Nat.toString_eq_ofList_toDigits, String.toList_ofList, if_pos hdigits,
    hvalue]
  simp only [Option.filter_some, hbound, if_true]

end CodeReview.Json

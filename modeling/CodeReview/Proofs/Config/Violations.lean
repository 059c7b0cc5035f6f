import CodeReview.Proofs.Config.Order
import CodeReview.Proofs.Config.Rules

/-!
# Violations of the rules

Each rule that a configuration breaks is listed once, whatever else it breaks, in the order of the
rules with the models by key; and mending a model takes the rules about that model off the list and
leaves the others where they are (`Config.problems_eq_map_broken`).

A `Rule` is about a model, which it names by the key, or about the configuration as a whole.
`Config.Breaks` says what it is to break one, without regard to the order in which the rules are
checked, and `Rule.Precedes` is that order.
-/

namespace CodeReview

open CodeReview.Number

/-- The rational number that a single stands for, if it does for one. -/
def Number.Single.value? : Single → Option ℚ
  | .finite negative units => some ((if negative then -(units : ℚ) else units) / unitsPerOne)
  | _ => none

/-- The check of a temperature is about the number that it stands for. -/
lemma Number.Single.inUnitInterval_iff {x : Single} :
    x.inUnitInterval = true ↔ ∃ q ∈ x.value?, 0 ≤ q ∧ q ≤ 1 := by
  have hone : (0 : ℚ) < unitsPerOne := Nat.cast_pos.mpr (Nat.pow_pos (by decide))
  cases x with
  | nan | infinite => simp [inUnitInterval, value?]
  | finite negative units =>
      cases negative with
      | false =>
          have hzero : units = 0 → units ≤ unitsPerOne := fun h => h ▸ Nat.zero_le _
          simpa [inUnitInterval, value?, div_nonneg, hone.le, div_le_one hone] using hzero
      | true =>
          simp only [inUnitInterval, value?, Bool.not_true, Bool.false_and, Bool.false_or,
            beq_iff_eq, if_true, Option.mem_some_iff, exists_eq_left', le_div_iff₀ hone,
            div_le_one hone, zero_mul]
          constructor
          · rintro rfl
            simp [hone.le]
          · rintro ⟨hle, -⟩
            exact Nat.cast_eq_zero.mp (le_antisymm (neg_nonneg.mp hle) units.cast_nonneg)

namespace Config

/-! ### Rules -/

/-- A rule for a model. -/
inductive ModelRule where
  | maxTokens
  | temperature
  | hosted
  | base
  deriving DecidableEq

namespace ModelRule

/-- All of them, in order. -/
def all : List ModelRule := [maxTokens, temperature, hosted, base]

/-- None of the rules for models is left out. -/
lemma mem_all (rule : ModelRule) : rule ∈ all := by cases rule <;> decide

/-- What it is for a model to break a rule. -/
def IsBrokenBy (m : Model) : ModelRule → Prop
  | maxTokens => m.maxTokens = 0
  | temperature => ¬∃ q ∈ m.temperature.value?, 0 ≤ q ∧ q ≤ 1
  | hosted => m.provider = .other ∧ m.apiBase = none
  | base => ∃ base ∈ m.apiBase, Url.parse? base = none

instance (m : Model) : (rule : ModelRule) → Decidable (rule.IsBrokenBy m)
  | maxTokens => inferInstanceAs (Decidable (m.maxTokens = 0))
  | temperature =>
      decidable_of_iff (¬m.temperature.inUnitInterval = true) (not_congr Single.inUnitInterval_iff)
  | hosted => inferInstanceAs (Decidable (m.provider = .other ∧ m.apiBase = none))
  | base => inferInstanceAs (Decidable (∃ base ∈ m.apiBase, Url.parse? base = none))

/-- The wording of a violation. -/
def wording (key : String) (m : Model) (rule : ModelRule) : String :=
  "Model " ++ inQuotes key ++ ": " ++
    match rule with
    | maxTokens => "max_tokens must be positive"
    | temperature => "temperature " ++ m.temperature.plain ++ " is outside [0, 1]"
    | hosted => "provider 'other' requires api_base"
    | base => "api_base " ++ inQuotes (m.apiBase.getD "") ++ " is not a valid URL"

/-- The place of a rule in the order. -/
def rank : ModelRule → Nat
  | maxTokens => 0
  | temperature => 1
  | hosted => 2
  | base => 3

end ModelRule

/-- A rule for a configuration. -/
inductive Rule where
  | anyModel
  | defaultModel
  | model (key : String) (rule : ModelRule)
  | limit
  | timeFrame
  | timeout
  deriving DecidableEq

namespace Rule

/-- The rule is about the model under a key. -/
def IsAbout (key : String) : Rule → Prop
  | model k _ => k = key
  | _ => False

instance (key : String) : (rule : Rule) → Decidable (rule.IsAbout key)
  | model k _ => inferInstanceAs (Decidable (k = key))
  | anyModel | defaultModel | limit | timeFrame | timeout => inferInstanceAs (Decidable False)

/-- The place of a rule in the order, in which the rules about models share one. -/
def rank : Rule → Nat
  | anyModel => 0
  | defaultModel => 1
  | model .. => 2
  | limit => 3
  | timeFrame => 4
  | timeout => 5

/-- One rule stands in front of another.  Rules about models stand in the order of the keys. -/
def Precedes : Rule → Rule → Prop
  | model k r, model l s => k < l ∨ k = l ∧ r.rank < s.rank
  | r, s => r.rank < s.rank

/-- Rules of different ranks stand in the order of these. -/
lemma precedes_of_rank_lt {r s : Rule} (h : r.rank < s.rank) : r.Precedes s := by
  cases r <;> cases s <;> first | exact h | exact absurd h (lt_irrefl _)

/-- No rule precedes itself. -/
lemma Precedes.ne {r s : Rule} (h : r.Precedes s) : r ≠ s := by
  rintro rfl
  cases r <;> simp [Precedes] at h

end Rule

/-- What it is for a configuration to break a rule. -/
def Breaks (c : Config) : Rule → Prop
  | .anyModel => c.models = []
  | .defaultModel => c.defaultModel ∉ c.keys
  | .model key rule => ∃ m ∈ c.model? key, rule.IsBrokenBy m
  | .limit => c.policy.limit = 0
  | .timeFrame => c.policy.timeFrame = 0
  | .timeout => c.timeout = 0

instance (c : Config) : (rule : Rule) → Decidable (c.Breaks rule)
  | .anyModel => inferInstanceAs (Decidable (c.models = []))
  | .defaultModel => inferInstanceAs (Decidable (c.defaultModel ∉ c.keys))
  | .model key rule => inferInstanceAs (Decidable (∃ m ∈ c.model? key, rule.IsBrokenBy m))
  | .limit => inferInstanceAs (Decidable (c.policy.limit = 0))
  | .timeFrame => inferInstanceAs (Decidable (c.policy.timeFrame = 0))
  | .timeout => inferInstanceAs (Decidable (c.timeout = 0))

/-- The wording of a violation. -/
def wording (c : Config) : Rule → String
  | .anyModel => "No models configured"
  | .defaultModel => "Default model " ++ inQuotes c.defaultModel ++ " is not defined under models"
  | .model key rule => (c.model? key).elim "" (rule.wording key)
  | .limit => "rate_limit.limit must be positive"
  | .timeFrame => "rate_limit.time_frame must be positive"
  | .timeout => "request_timeout_secs must be positive"

/-- All rules for the models and the configuration, in order. -/
def rules (c : Config) : List Rule :=
  [.anyModel, .defaultModel] ++ c.keys.flatMap (fun key => ModelRule.all.map (.model key)) ++
    [.limit, .timeFrame, .timeout]

/-- The rules that are broken, in order. -/
def broken (c : Config) : List Rule := c.rules.filter (c.Breaks ·)

variable {c : Config} {key : String} {m : Model} {rule : Rule}

/-- A rule for a model is broken by the model that is found under the key. -/
lemma breaks_model {rule : ModelRule} :
    c.Breaks (.model key rule) ↔ ∃ m ∈ c.model? key, rule.IsBrokenBy m := Iff.rfl

/-- A rule for a model is worded for the model that is found under the key. -/
lemma wording_model (c : Config) (key : String) (rule : ModelRule) :
    c.wording (.model key rule) = (c.model? key).elim "" (rule.wording key) := rfl

/-- The rules of a configuration are those about it as a whole and those about its models. -/
lemma mem_rules : rule ∈ c.rules ↔ ∀ key, rule.IsAbout key → key ∈ c.keys := by
  cases rule <;> simp [rules, Rule.IsAbout, ModelRule.mem_all]

/-! ### The list -/

/-- The wordings of the violations of some rules. -/
def listed (c : Config) (rules : List Rule) : List String :=
  (rules.filter (c.Breaks ·)).map c.wording

/-- Violations of two rows of rules are listed one row after the other. -/
lemma listed_append (rules₁ rules₂ : List Rule) :
    c.listed (rules₁ ++ rules₂) = c.listed rules₁ ++ c.listed rules₂ := by
  rw [listed, List.filter_append, List.map_append]
  rfl

/-- Violations of any number of rows of rules are listed one row after the other. -/
lemma listed_flatMap {α : Type} (as : List α) (rules : α → List Rule) :
    c.listed (as.flatMap rules) = as.flatMap fun a => c.listed (rules a) := by
  induction as with
  | nil => rfl
  | cons a rest ih => rw [List.flatMap_cons, listed_append, ih, List.flatMap_cons]

/-- A check lists its rule where that is broken. -/
lemma violationUnless_eq_listed {kept : Bool} {violation : String}
    (hkept : kept = true ↔ ¬c.Breaks rule) (hwording : c.wording rule = violation) :
    violationUnless kept violation = c.listed [rule] := by
  by_cases hbreaks : c.Breaks rule
  · have hfalse : kept = false := Bool.eq_false_iff.mpr (hkept.not_left.mpr hbreaks)
    simp [violationUnless, listed, hbreaks, hfalse, hwording]
  · simp [violationUnless, listed, hbreaks, hkept.mpr hbreaks]

/-- **A model is listed once for each rule that it breaks.** -/
lemma modelProblems_eq_listed (h : c.model? key = some m) :
    modelProblems key m = c.listed (ModelRule.all.map (.model key)) := by
  have hbreaks (rule : ModelRule) : c.Breaks (.model key rule) ↔ rule.IsBrokenBy m := by
    simp [breaks_model, h]
  have hwording (rule : ModelRule) : c.wording (.model key rule) = rule.wording key m := by
    simp [wording_model, h]
  have hbase : (m.apiBase.elim [] fun base => violationUnless (Url.parse? base).isSome
      ("Model " ++ inQuotes key ++ ": " ++
        ("api_base " ++ inQuotes base ++ " is not a valid URL"))) =
      c.listed [.model key .base] := by
    cases hbase : m.apiBase with
    | none => simp [listed, hbreaks, ModelRule.IsBrokenBy, hbase]
    | some base =>
        refine violationUnless_eq_listed ?_ ?_
        · rw [hbreaks]
          simp [ModelRule.IsBrokenBy, hbase, Option.isSome_iff_ne_none]
        · rw [hwording]
          simp [ModelRule.wording, hbase]
  have hall : ModelRule.all.map (Rule.model key) = [.model key .maxTokens] ++
      [.model key .temperature] ++ [.model key .hosted] ++ [.model key .base] := rfl
  rw [hall, listed_append, listed_append, listed_append, modelProblems, hbase]
  congr 3
  · refine violationUnless_eq_listed ?_ (hwording _)
    rw [hbreaks]
    simp [ModelRule.IsBrokenBy, Nat.pos_iff_ne_zero]
  · refine violationUnless_eq_listed ?_ (hwording _)
    rw [hbreaks, Single.inUnitInterval_iff]
    exact not_not.symm
  · refine violationUnless_eq_listed ?_ (hwording _)
    rw [hbreaks]
    cases hhosted : m.apiBase <;> simp [ModelRule.IsBrokenBy, hhosted]

/-- **The problems are the violations of the rules, in order.** -/
lemma problems_eq_listed (h : c.IsOrdered) : c.problems = c.listed c.rules := by
  have hmodels : c.models.flatMap (fun p => modelProblems p.1 p.2) =
      c.listed (c.keys.flatMap fun key => ModelRule.all.map (.model key)) := by
    rw [listed_flatMap, keys, List.flatMap_map]
    exact List.flatMap_congr fun p hp => modelProblems_eq_listed (h.model?_eq hp)
  have hrules : c.rules = [.anyModel] ++ [.defaultModel] ++
      c.keys.flatMap (fun key => ModelRule.all.map (.model key)) ++ [.limit] ++ [.timeFrame] ++
      [.timeout] := by
    simp [rules]
  rw [hrules, problems, hmodels]
  simp only [listed_append]
  congr 5
  · exact violationUnless_eq_listed (by simp [Breaks]) rfl
  · exact violationUnless_eq_listed (by simp [Breaks, model?_isSome_iff]) rfl
  · exact violationUnless_eq_listed (by simp [Breaks, Nat.pos_iff_ne_zero]) rfl
  · exact violationUnless_eq_listed (by simp [Breaks, Nat.pos_iff_ne_zero]) rfl
  · exact violationUnless_eq_listed (by simp [Breaks, Nat.pos_iff_ne_zero]) rfl

/-! ### The order -/

/-- The rules of a configuration whose models are in order stand in the order of rules. -/
lemma pairwise_rules (h : c.IsOrdered) : c.rules.Pairwise Rule.Precedes := by
  have hmodel (key : String) : (ModelRule.all.map (Rule.model key)).Pairwise Rule.Precedes := by
    have hranks : ModelRule.all.Pairwise fun r s => r.rank < s.rank := by decide
    exact List.pairwise_map.mpr (hranks.imp fun hrank => .inr ⟨rfl, hrank⟩)
  have hmodels : (c.keys.flatMap fun key => ModelRule.all.map (Rule.model key)).Pairwise
      Rule.Precedes := by
    refine List.pairwise_flatMap.mpr ⟨fun key _ => hmodel key, List.Pairwise.imp ?_ h⟩
    intro key k hlt
    simp only [List.forall_mem_map]
    exact fun _ _ _ _ => .inl hlt
  have hrank : ∀ rule ∈ c.keys.flatMap fun key => ModelRule.all.map (Rule.model key),
      rule.rank = 2 := by
    simp only [List.mem_flatMap, List.mem_map]
    rintro _ ⟨key, -, rule, -, rfl⟩
    rfl
  unfold rules
  refine List.pairwise_append.mpr ⟨List.pairwise_append.mpr ⟨?_, hmodels, ?_⟩, ?_, ?_⟩
  · simp [Rule.Precedes, Rule.rank]
  · intro r hr s hs
    refine Rule.precedes_of_rank_lt (lt_of_lt_of_eq ?_ (hrank s hs).symm)
    fin_cases hr <;> decide
  · simp [Rule.Precedes, Rule.rank]
  · intro r hr s hs
    have hle : r.rank ≤ 2 := by
      rcases List.mem_append.mp hr with hr | hr
      · fin_cases hr <;> decide
      · exact (hrank r hr).le
    refine Rule.precedes_of_rank_lt (lt_of_le_of_lt hle ?_)
    fin_cases hs <;> decide

/-- The rules that are listed as broken are those that are broken. -/
lemma mem_broken : rule ∈ c.broken ↔ c.Breaks rule := by
  have hrules : c.Breaks rule → rule ∈ c.rules := by
    intro hbreaks
    refine mem_rules.mpr fun key habout => ?_
    cases rule with
    | model k rule =>
        obtain ⟨m, hm, -⟩ := hbreaks
        rw [← model?_isSome_iff, ← show k = key from habout, hm]
        rfl
    | _ => exact habout.elim
  rw [broken, List.mem_filter, decide_eq_true_eq]
  exact and_iff_right_of_imp hrules

/-! ### Mending a model -/

/-- A model has no part in the rules that are not about it. -/
lemma breaks_put (h : c.IsOrdered) (hkey : key ∈ c.keys) (habout : ¬rule.IsAbout key) :
    (c.put key m).Breaks rule ↔ c.Breaks rule := by
  have hkeys := h.keys_put (m := m) hkey
  cases rule with
  | anyModel =>
      have hempty (c : Config) : c.models = [] ↔ c.keys = [] := List.map_eq_nil_iff.symm
      exact (hempty _).trans (hkeys ▸ (hempty c).symm)
  | defaultModel => exact not_congr (iff_of_eq (congrArg (c.defaultModel ∈ ·) hkeys))
  | model k rule =>
      have hne : k ≠ key := habout
      rw [breaks_model, breaks_model, model?_put, if_neg hne]
  | limit | timeFrame | timeout => exact Iff.rfl

/-- A model that is put under a key does not change how rules about others are worded. -/
lemma wording_put (habout : ¬rule.IsAbout key) : (c.put key m).wording rule = c.wording rule := by
  cases rule with
  | model k rule =>
      have hne : k ≠ key := habout
      rw [wording_model, wording_model, model?_put, if_neg hne]
  | _ => rfl

/-- With a model that breaks no rule, none about its key is broken. -/
lemma not_breaks_put (hm : ∀ rule : ModelRule, ¬rule.IsBrokenBy m) (habout : rule.IsAbout key) :
    ¬(c.put key m).Breaks rule := by
  cases rule with
  | model k rule =>
      have heq : k = key := habout
      rintro ⟨n, hn, hbroken⟩
      rw [model?_put, if_pos heq] at hn
      cases hn
      exact hm rule hbroken
  | _ => exact habout.elim

/-- **Mending a model** takes the rules about it off the list. -/
lemma broken_put (h : c.IsOrdered) (hkey : key ∈ c.keys)
    (hm : ∀ rule : ModelRule, ¬rule.IsBrokenBy m) :
    (c.put key m).broken = c.broken.filter (¬·.IsAbout key) := by
  have hrules : (c.put key m).rules = c.rules := by rw [rules, h.keys_put hkey, rules]
  rw [broken, broken, hrules, List.filter_filter]
  refine List.filter_congr fun rule _ => ?_
  by_cases habout : rule.IsAbout key
  · simp [habout, not_breaks_put hm habout]
  · simp [habout, breaks_put h hkey habout]

/-- **The list of problems.**  It has one entry for each rule that is broken, in the order of the
rules with the models by key, and none if all are kept; and mending a model takes the entries about
that model off the list.  Configurations that are made of models or read from a text are ordered
(`isOrdered_ofModels`, `isOrdered_of_parse`). -/
theorem problems_eq_map_broken (h : c.IsOrdered) :
    c.problems = c.broken.map c.wording ∧ (∀ rule, rule ∈ c.broken ↔ c.Breaks rule) ∧
      c.broken.Nodup ∧ c.broken.Pairwise Rule.Precedes ∧
      (c.problems = [] ↔ ∀ rule, ¬c.Breaks rule) ∧
      ∀ key ∈ c.keys, ∀ m, (∀ rule : ModelRule, ¬rule.IsBrokenBy m) →
        (c.put key m).problems = (c.broken.filter (¬·.IsAbout key)).map c.wording := by
  have hproblems {c : Config} (h : c.IsOrdered) : c.problems = c.broken.map c.wording :=
    problems_eq_listed h
  have horder : c.broken.Pairwise Rule.Precedes := (pairwise_rules h).filter _
  refine ⟨hproblems h, fun _ => mem_broken, horder.imp Rule.Precedes.ne, horder, ?_, ?_⟩
  · rw [hproblems h, List.map_eq_nil_iff, List.eq_nil_iff_forall_not_mem]
    exact forall_congr' fun _ => not_congr mem_broken
  · intro key hkey m hm
    rw [hproblems (h.put key m), broken_put h hkey hm]
    refine List.map_congr_left fun rule hrule => wording_put ?_
    simpa using (List.mem_filter.mp hrule).2

/-- Almost everything is wrong with two models and their quota; then one of the models is mended. -/
theorem problems_eq_map_broken_mended :
    let c := ofModels "missing" [⟨"b", .openai, 1, .ofInt 1, some "http://", none⟩,
      ⟨"a", .other, 0, .ofInt 2, none, none⟩] ⟨0, 60⟩ 0
    c.IsOrdered ∧
      c.problems = [.defaultModel, .model "a" .maxTokens, .model "a" .temperature,
        .model "a" .hosted, .model "b" .base, .limit, .timeout].map c.wording ∧
      (c.put "a" (.ofName "gpt-4o" .openai)).problems =
        [.defaultModel, .model "b" .base, .limit, .timeout].map c.wording := by
  intro c
  have hc : c.IsOrdered := isOrdered_ofModels _ _ _ _
  have hbroken : c.broken = [.defaultModel, .model "a" .maxTokens, .model "a" .temperature,
      .model "a" .hosted, .model "b" .base, .limit, .timeout] := by decide +kernel
  obtain ⟨hproblems, -, -, -, -, hmended⟩ := problems_eq_map_broken hc
  rw [hbroken] at hproblems hmended
  refine ⟨hc, hproblems, hmended "a" (by decide) (.ofName "gpt-4o" .openai) ?_⟩
  intro rule
  cases rule <;> decide +kernel

end Config

end CodeReview

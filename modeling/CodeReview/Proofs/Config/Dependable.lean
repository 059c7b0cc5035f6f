import CodeReview.Proofs.Model.Body
import CodeReview.Proofs.Model.Endpoint
import CodeReview.Proofs.Model.Unasked
import CodeReview.Proofs.Number.Value
import CodeReview.Proofs.RateLimit.Waiting

/-!
# What the rules for configurations are good for

The rules are checked in one place, and what they rule out would go wrong in others: in the search
for the default model, at the addresses of the models, in the limiter, and in the bodies of
requests.  `Dependable` says what these places need, and `Config.dependable_of_valid` that a
configuration without problems has it, rule by rule.

Of a body it is the text that is sent which counts: the limit on tokens and the temperature are read
back from it by the names of the fields, as a service does (`Dialect.asked?`,
`Dialect.temperature?`).
-/

namespace CodeReview

open CodeReview.Json CodeReview.Number CodeReview.Prompt

/-! ### The temperature in a body -/

namespace Json

/-- A number of any form. -/
def asRational? : Value → Option ℚ
  | .number t => valueOf? t.toList
  | _ => none

/-- What a member of an object is, read as a number. -/
def rationalAt? (name : String) (v : Value) : Option ℚ := do
  match ← fields? [name] v with
  | [x] => required? asRational? x
  | _ => none

/-- A member of an object. -/
def memberAt? (name : String) (v : Value) : Option Value := do
  match ← fields? [name] v with
  | [x] => x
  | _ => none

end Json

namespace Dialect

/-- The temperature that the text of a body asks for. -/
def temperature? (d : Dialect) (text : String) : Option ℚ := do
  let v ← Json.parse? text
  match d with
  | completions | messages => rationalAt? "temperature" v
  | contents => rationalAt? "temperature" (← memberAt? "generationConfig" v)

/-- All formats give the temperature as it is written, at a place of their own. -/
lemma temperature?_body (d : Dialect) (prompt source : String) (m : Model) :
    d.temperature? (d.body prompt source m).write = asRational? (numberValue m.temperature) := by
  rw [temperature?, parse?_write _ (isSound_body d prompt source m)]
  cases d with
  | completions => rfl
  | messages => rfl
  | contents => rfl

/-- **A temperature between zero and one is asked for as such.** -/
lemma exists_temperature?_body {m : Model} (h : m.temperature.inUnitInterval = true) (d : Dialect)
    (prompt source : String) :
    ∃ t, d.temperature? (d.body prompt source m).write = some t ∧ 0 ≤ t ∧ t ≤ 1 := by
  obtain ⟨text, t, htext, hvalue, hbounds⟩ := Single.exists_jsonText h
  refine ⟨t, ?_, hbounds⟩
  rw [temperature?_body, numberValue, htext]
  exact hvalue

end Dialect

namespace Config

variable {c : Config}

/-! ### What the rest of the program needs -/

/-- What the rest of the program may rely on. -/
structure Dependable (c : Config) : Prop where
  /-- A review that names no model gets one. -/
  resolved : ∃ m, c.resolve none = .ok m ∧ (c.defaultModel, m) ∈ c.models
  /-- Every model has an address. -/
  address : ∀ p ∈ c.models, ∃ base, p.2.baseUrl? = some base
  /-- No question is refused for want of an address. -/
  addressed : ∀ p ∈ c.models, ∀ (prompt source : String) (timeout : Duration) (m : Machine),
    ((Question.askNetwork timeout ⟨prompt, source, p.2⟩).run m).1 ≠ .error p.2.baseFault
  /-- A limiter in whose window there is nothing admits. -/
  admitted : ∀ (l : Limiter) (now : Instant), l.policy = c.policy →
    (l.prune now).admitted = [] → (l.check now).1 = .allowed
  /-- A limiter that denies says how long to wait. -/
  denied : ∀ (l : Limiter) (now : Instant) (wait : Duration), l.policy = c.policy →
    (l.check now).1 = .denied wait → 0 < wait
  /-- Every body asks for some tokens, at a temperature that is a number between zero and one. -/
  asked : ∀ p ∈ c.models, ∀ prompt source : String,
    (∃ a, p.2.provider.dialect.asked? (p.2.requestBody prompt source).write = some a ∧
      0 < a.maxTokens) ∧
    ∃ t, p.2.provider.dialect.temperature? (p.2.requestBody prompt source).write = some t ∧
      0 ≤ t ∧ t ≤ 1

/-- A configuration that keeps the rules has a default model. -/
lemma KeepsRules.exists_resolve (h : c.KeepsRules) :
    ∃ m, c.resolve none = .ok m ∧ (c.defaultModel, m) ∈ c.models := by
  obtain ⟨m, hm⟩ := Option.isSome_iff_exists.mp h.defaultModel
  obtain ⟨before, behind, hmodels, -⟩ := List.lookup_eq_some_iff.mp hm
  refine ⟨m, ?_, ?_⟩
  · rw [resolve, Option.getD_none, hm]
  · rw [hmodels]
    exact List.mem_append_right _ List.mem_cons_self

/-- **What keeps all rules can be depended on.** -/
theorem dependable_of_valid (h : c.problems = []) : c.Dependable := by
  have hrules := problems_eq_nil_iff.mp h
  have haddress : ∀ p ∈ c.models, ∃ base, p.2.baseUrl? = some base := by
    intro p hp
    obtain ⟨base, -, hbase, -⟩ := (hrules.models p hp).exists_base
    exact ⟨_, Model.baseUrl?_of_baseText? hbase⟩
  refine ⟨hrules.exists_resolve, haddress, ?_, ?_, ?_, ?_⟩
  · intro p hp prompt source timeout m
    obtain ⟨base, hbase⟩ := haddress p hp
    exact Question.askNetwork_ne_baseFault (q := ⟨prompt, source, p.2⟩)
      (Model.base_of_baseUrl? hbase) timeout m
  · intro l now hpolicy hempty
    exact Limiter.allowed_of_empty (hpolicy ▸ hrules.limit) hempty
  · intro l now wait hpolicy hdenied
    exact Limiter.wait_pos_of_denied (hpolicy ▸ hrules.limit) hdenied
  · intro p hp prompt source
    exact ⟨⟨_, Dialect.asked?_body _ prompt source p.2, (hrules.models p hp).maxTokens⟩,
      Dialect.exists_temperature?_body (hrules.models p hp).temperature _ prompt source⟩

/-- One model at its provider's own address, and one elsewhere at the highest temperature. -/
theorem dependable_of_two_models :
    let c : Config := ⟨"a", [("a", .ofName "gpt-4o" .openai),
      ("b", ⟨"llama3", .other, 1, .ofInt 1, some "http://localhost/v1", none⟩)], ⟨1, 60⟩, 60⟩
    c.problems = [] ∧ c.Dependable := by
  intro c
  have hvalid : c.problems = [] := by decide +kernel
  exact ⟨hvalid, dependable_of_valid hvalid⟩

end Config

end CodeReview

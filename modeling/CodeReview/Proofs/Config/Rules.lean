import CodeReview.Config.Check
import Mathlib.Tactic

/-!
# Configurations that keep the rules

What the rules demand, said without the wording of their violations: a configuration has no problems
exactly if it keeps them (`Config.problems_eq_nil_iff`).
-/

namespace CodeReview

namespace Config

variable {c : Config}

/-- What the rules demand of a model. -/
structure ModelKeepsRules (m : Model) : Prop where
  maxTokens : 0 < m.maxTokens
  temperature : m.temperature.inUnitInterval = true
  hosted : m.provider = .other → m.apiBase.isSome = true
  base : ∀ base ∈ m.apiBase, (Url.parse? base).isSome = true

/-- What the rules demand of a configuration. -/
structure KeepsRules (c : Config) : Prop where
  defaultModel : (c.model? c.defaultModel).isSome = true
  models : ∀ p ∈ c.models, ModelKeepsRules p.2
  limit : 0 < c.policy.limit
  timeFrame : 0 < c.policy.timeFrame
  timeout : 0 < c.timeout

/-- There is no violation of a rule that is kept. -/
lemma violationUnless_eq_nil_iff {kept : Bool} {violation : String} :
    violationUnless kept violation = [] ↔ kept = true := by
  cases kept <;> simp [violationUnless]

/-- A model without problems is one that keeps the rules. -/
lemma modelProblems_eq_nil_iff {key : String} {m : Model} :
    modelProblems key m = [] ↔ ModelKeepsRules m := by
  have hbase : (m.apiBase.elim [] fun base => violationUnless (Url.parse? base).isSome
      ("Model " ++ inQuotes key ++ ": " ++
        ("api_base " ++ inQuotes base ++ " is not a valid URL"))) = [] ↔
      ∀ base ∈ m.apiBase, (Url.parse? base).isSome = true := by
    cases m.apiBase <;> simp [violationUnless_eq_nil_iff]
  simp only [modelProblems, List.append_eq_nil_iff, violationUnless_eq_nil_iff, hbase,
    decide_eq_true_eq, Bool.or_eq_true]
  constructor
  · rintro ⟨⟨⟨htokens, htemperature⟩, hhosted⟩, hbase⟩
    exact ⟨htokens, htemperature, fun hother => hhosted.resolve_left (not_not_intro hother), hbase⟩
  · intro h
    exact ⟨⟨⟨h.maxTokens, h.temperature⟩, or_iff_not_imp_left.mpr fun hother =>
      h.hosted (not_not.mp hother)⟩, h.base⟩

/-- A configuration with a default model has a model. -/
lemma models_ne_nil (h : (c.model? c.defaultModel).isSome = true) : c.models.isEmpty = false := by
  rw [model?] at h
  cases hmodels : c.models with
  | nil => rw [hmodels] at h; cases h
  | cons => rfl

/-- **There are no problems exactly if all rules are kept.**  That there is a model at all needs no
rule of its own. -/
lemma problems_eq_nil_iff : c.problems = [] ↔ c.KeepsRules := by
  simp only [problems, List.append_eq_nil_iff, violationUnless_eq_nil_iff, List.flatMap_eq_nil_iff,
    modelProblems_eq_nil_iff, decide_eq_true_eq, Bool.not_eq_true']
  constructor
  · rintro ⟨⟨⟨⟨⟨-, hdefault⟩, hmodels⟩, hlimit⟩, htimeFrame⟩, htimeout⟩
    exact ⟨hdefault, hmodels, hlimit, htimeFrame, htimeout⟩
  · intro h
    exact ⟨⟨⟨⟨⟨models_ne_nil h.defaultModel, h.defaultModel⟩, h.models⟩, h.limit⟩, h.timeFrame⟩,
      h.timeout⟩

end Config

end CodeReview

import CodeReview.Config.Basic
import CodeReview.Failure
import CodeReview.Text.Blank
import CodeReview.Url.Reader

/-!
# Checking configurations

The rules that a configuration has to keep, each with the wording of its violation, the search for
a model by its key, and the key variables that have no value.
-/

namespace CodeReview

open CodeReview.Text

namespace Config

/-- Text between single quotes. -/
def inQuotes (s : String) : String := "'" ++ s ++ "'"

/-- A violation, if there is one. -/
def violationUnless (kept : Bool) (violation : String) : List String :=
  if kept then [] else [violation]

/-- Violations of the rules for a model under a key. -/
def modelProblems (key : String) (m : Model) : List String :=
  let about (s : String) : String := "Model " ++ inQuotes key ++ ": " ++ s
  violationUnless (0 < m.maxTokens) (about "max_tokens must be positive") ++
    violationUnless m.temperature.inUnitInterval
      (about ("temperature " ++ m.temperature.plain ++ " is outside [0, 1]")) ++
    violationUnless (m.provider ≠ .other || m.apiBase.isSome)
      (about "provider 'other' requires api_base") ++
    (m.apiBase.elim [] fun base => violationUnless (Url.parse? base).isSome
      (about ("api_base " ++ inQuotes base ++ " is not a valid URL")))

/-- Violations of all rules: those for the models as a whole, for each model, and for the quota. -/
def problems (c : Config) : List String :=
  violationUnless (!c.models.isEmpty) "No models configured" ++
    violationUnless (c.model? c.defaultModel).isSome
      ("Default model " ++ inQuotes c.defaultModel ++ " is not defined under models") ++
    c.models.flatMap (fun p => modelProblems p.1 p.2) ++
    violationUnless (0 < c.policy.limit) "rate_limit.limit must be positive" ++
    violationUnless (0 < c.policy.timeFrame) "rate_limit.time_frame must be positive" ++
    violationUnless (0 < c.timeout) "request_timeout_secs must be positive"

/-- The failure that lists the problems of the configuration at a path. -/
def invalid (path : String) (problems : List String) : Failure :=
  .configuration
    (toString problems.length ++ " problem(s) in " ++ path ++ ": " ++ "; ".intercalate problems)
    none (some "Fix the listed fields and run 'reverse-engineer init' again")

/-- The model under a requested key, or the default model. -/
def resolve (c : Config) (requested : Option String) : Except Failure Model :=
  let key := requested.getD c.defaultModel
  match c.model? key with
  | some m => .ok m
  | none =>
    .error (.configuration ("Unknown model " ++ inQuotes key) (some "models")
      (some ("Available models: " ++ ", ".intercalate c.keys)))

/-- Put a text into a rising list without repetitions. -/
def insertName (s : String) : List String → List String
  | [] => [s]
  | t :: rest =>
    if s = t then t :: rest else if s < t then s :: t :: rest else t :: insertName s rest

/-- The key variables of all models, in rising order. -/
def keyNames (c : Config) : List String :=
  (c.models.map fun p => p.2.keyName).foldr insertName []

/-- One line for each key variable without a value that is not blank. -/
def keyWarnings (setting? : String → Option String) (c : Config) : List String :=
  (c.keyNames.filter fun name => allBlank ((setting? name).getD "")).map (· ++ " is not set")

end Config

end CodeReview

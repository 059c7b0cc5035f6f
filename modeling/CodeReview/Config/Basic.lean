import CodeReview.Model.Basic
import CodeReview.RateLimit.Policy

/-!
# Configurations

The models that can be asked, which of them is asked by default, the quota of requests and the
time that a request may take.  Models are kept in the order of their keys.
-/

namespace CodeReview

open CodeReview.Text

/-- A configuration. -/
structure Config where
  defaultModel : String
  /-- Models by key, in rising order of the keys. -/
  models : List (String × Model)
  policy : Policy
  /-- Seconds that a request may take. -/
  timeout : Nat
  deriving Repr, DecidableEq

namespace Config

/-- Seconds that a request may take unless a configuration says otherwise. -/
def standardTimeout : Nat := 60

/-- Put a model under a key, instead of one that was there. -/
def putModel (key : String) (m : Model) : List (String × Model) → List (String × Model)
  | [] => [(key, m)]
  | (k, n) :: rest =>
    if key = k then (key, m) :: rest
    else if key < k then (key, m) :: (k, n) :: rest
    else (k, n) :: putModel key m rest

/-- Models in the order of their keys; of models with one key the last counts. -/
def sortModels (models : List (String × Model)) : List (String × Model) :=
  models.foldl (fun sorted p => putModel p.1 p.2 sorted) []

/-- A configuration of models under their own names. -/
def ofModels (defaultModel : String) (models : List Model) (policy : Policy) (timeout : Nat) :
    Config :=
  ⟨defaultModel, sortModels (models.map fun m => (m.name, m)), policy, timeout⟩

/-- The model under a key. -/
def model? (c : Config) (key : String) : Option Model := c.models.lookup key

/-- The keys of all models. -/
def keys (c : Config) : List String := c.models.map (·.1)

/-- Give models with blank names their keys as names. -/
def normalize (c : Config) : Config :=
  { c with models := c.models.map fun p =>
      (p.1, if allBlank p.2.name then { p.2 with name := p.1 } else p.2) }

/-- Time that a request may take. -/
def requestTimeout (c : Config) : Duration := Duration.ofSeconds c.timeout

end Config

end CodeReview

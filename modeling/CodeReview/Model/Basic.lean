import CodeReview.Provider
import CodeReview.Number.Single

/-!
# Configured models

A model as a configuration describes it: who hosts it, under which name, and how it is to be
asked.
-/

namespace CodeReview

open CodeReview.Number CodeReview.Text

/-- A model and how to reach it. -/
structure Model where
  /-- The name under which the provider knows it. -/
  name : String
  provider : Provider
  maxTokens : Nat
  temperature : Single
  /-- Address of the endpoint, where it is not the provider's public one. -/
  apiBase : Option String
  /-- Environment variable of the key, where it is not the provider's usual one. -/
  keyVariable : Option String
  deriving Repr, DecidableEq

namespace Model

/-- The number of tokens that an answer may have unless a model says otherwise. -/
def standardMaxTokens : Nat := 4096

/-- The temperature used unless a model says otherwise: the single nearest to 0.7. -/
def standardTemperature : Single := .ofDecimal false ⟨7, -1⟩

/-- A model of a provider, with the usual settings. -/
def ofName (name : String) (provider : Provider) : Model :=
  ⟨name, provider, standardMaxTokens, standardTemperature, none, none⟩

/-- The environment variable that holds the key. -/
def keyName (m : Model) : String := m.keyVariable.getD m.provider.keyVariable

/-- The address of the endpoint without slashes at its end, if there is one. -/
def baseUrl? (m : Model) : Option String :=
  (m.apiBase.orElse fun _ => m.provider.publicBase?).map (trimEndOf '/')

end Model

end CodeReview

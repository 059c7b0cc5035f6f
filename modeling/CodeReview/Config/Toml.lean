import CodeReview.Config.Basic
import CodeReview.Config.Malformed
import CodeReview.Toml.Reader

/-!
# Configurations in TOML

A configuration is a table; keys that it does not know are skipped.  A record may also be written
as an array of its fields in order, of which those at the end may be left out if they have a
standard value.
-/

namespace CodeReview.Config

open CodeReview.Toml CodeReview.Number

/-- The fields of a record, given by their names in order. -/
def fieldsOfToml? (names : List String) : Toml.Value → Option (List (String × Toml.Value))
  | .table _ members => some members
  | .array items => some (names.zip items)
  | .tables parts => some (names.zip (parts.reverse.map (.table .header)))
  | .moment => some []
  | _ => none

/-- A field that has a standard value. -/
def tomlOr? {α : Type} (name : String) (standard : α) (read : Toml.Value → Option α)
    (members : List (String × Toml.Value)) : Option α :=
  (members.lookup name).elim (some standard) read

/-- A field that has to be there. -/
def tomlOf? {α : Type} (name : String) (read : Toml.Value → Option α)
    (members : List (String × Toml.Value)) : Option α :=
  (members.lookup name).bind read

/-- A text. -/
def textOfToml? : Toml.Value → Option String
  | .text s => some s
  | _ => none

/-- A natural number below a bound. -/
def naturalOfToml? (bound : Nat) : Toml.Value → Option Nat
  | .integer n => if 0 ≤ n && n < bound then some n.toNat else none
  | _ => none

/-- A floating-point number; whole numbers count. -/
def singleOfToml? : Toml.Value → Option Single
  | .float x => some x
  | .integer n => some (.ofInt n)
  | _ => none

/-- Nothing is in a value that stands behind the name of a choice. -/
def holdsNothing : Toml.Value → Bool
  | .array items => items.isEmpty
  | .table _ members => members.isEmpty
  | _ => false

/-- A provider: its name, or a table with the name as its only key and nothing under it. -/
def providerOfToml? : Toml.Value → Option Provider
  | .text s => Provider.ofName? s
  | .table _ [(key, v)] => if holdsNothing v then Provider.ofName? key else none
  | _ => none

/-- A model. -/
def modelOfToml? (v : Toml.Value) : Option Model := do
  let members ← fieldsOfToml?
    ["name", "provider", "max_tokens", "temperature", "api_base", "api_key_env"] v
  let name ← tomlOr? "name" "" textOfToml? members
  let provider ← tomlOf? "provider" providerOfToml? members
  let maxTokens ←
    tomlOr? "max_tokens" Model.standardMaxTokens (naturalOfToml? (Nat.pow 2 32)) members
  let temperature ← tomlOr? "temperature" Model.standardTemperature singleOfToml? members
  let apiBase ← tomlOr? "api_base" none (fun v => (textOfToml? v).map some) members
  let keyVariable ← tomlOr? "api_key_env" none (fun v => (textOfToml? v).map some) members
  some ⟨name, provider, maxTokens, temperature, apiBase, keyVariable⟩

/-- A policy. -/
def policyOfToml? (v : Toml.Value) : Option Policy := do
  let members ← fieldsOfToml? ["limit", "time_frame"] v
  let limit ← tomlOr? "limit" Policy.standard.limit (naturalOfToml? (Nat.pow 2 32)) members
  let timeFrame ←
    tomlOr? "time_frame" Policy.standard.timeFrame (naturalOfToml? (Nat.pow 2 64)) members
  some ⟨limit, timeFrame⟩

/-- Models by key. -/
def modelsOfToml? : Toml.Value → Option (List (String × Model))
  | .table _ members =>
    (members.mapM fun p => (modelOfToml? p.2).map (p.1, ·)).map sortModels
  | _ => none

/-- A configuration. -/
def ofToml? (members : Members) : Option Config := do
  let defaultModel ← tomlOf? "default_model" textOfToml? members
  let models ← tomlOf? "models" modelsOfToml? members
  let policy ← tomlOr? "rate_limit" Policy.standard policyOfToml? members
  let timeout ←
    tomlOr? "request_timeout_secs" standardTimeout (naturalOfToml? (Nat.pow 2 64)) members
  some ⟨defaultModel, models, policy, timeout⟩

/-- Read a configuration. -/
def parseToml? (text : String) : Option Config := (Toml.parse? text).bind ofToml?

/-- Read a configuration, and tell what is wrong with it otherwise. -/
def parseToml (text : String) : Except Complaint Config :=
  match parseToml? text with
  | some c => .ok c
  | none => .error (if Toml.stopsAtKey text then .unassigned else .other)

end CodeReview.Config

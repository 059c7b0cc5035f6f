import CodeReview.Config.Basic
import CodeReview.Config.Malformed
import CodeReview.Yaml.Reading

/-!
# Configurations in YAML

A configuration is a mapping; keys that it does not know are skipped, a key that it knows must not
be repeated.  Among models a repeated key is allowed, and the last one counts.
-/

namespace CodeReview.Config

open CodeReview.Yaml CodeReview.Number

/-- The value of a field among members: absent, present once, or repeated, which is refused. -/
def member? (name : String) (members : List (String × Node)) : Option (Option Node) :=
  match members.filter (·.1 == name) with
  | [] => some none
  | [m] => some (some m.2)
  | _ => none

/-- A field that has a standard value. -/
def memberOr? {α : Type} (name : String) (standard : α) (read : Node → Option α)
    (members : List (String × Node)) : Option α :=
  (member? name members).bind fun v => v.elim (some standard) read

/-- A field that has to be there. -/
def memberOf? {α : Type} (name : String) (read : Node → Option α)
    (members : List (String × Node)) : Option α :=
  (member? name members).bind fun v => v.bind read

/-- A model. -/
def modelOfYaml? (n : Node) : Option Model := do
  let members ← n.asMembers?
  let name ← memberOr? "name" "" Node.asText? members
  let provider ← memberOf? "provider" (fun v => v.asChoice?.bind Provider.ofName?) members
  let maxTokens ←
    memberOr? "max_tokens" Model.standardMaxTokens (Node.asNatural? (Nat.pow 2 32)) members
  let temperature ← memberOr? "temperature" Model.standardTemperature Node.asSingle? members
  let apiBase ← memberOr? "api_base" none Node.asOptionalText? members
  let keyVariable ← memberOr? "api_key_env" none Node.asOptionalText? members
  some ⟨name, provider, maxTokens, temperature, apiBase, keyVariable⟩

/-- A policy. -/
def policyOfYaml? (n : Node) : Option Policy := do
  let members ← n.asMembers?
  let limit ← memberOr? "limit" Policy.standard.limit (Node.asNatural? (Nat.pow 2 32)) members
  let timeFrame ← memberOr? "time_frame" Policy.standard.timeFrame
    (Node.asNatural? (Nat.pow 2 64)) members
  some ⟨limit, timeFrame⟩

/-- Models by key. -/
def modelsOfYaml? (n : Node) : Option (List (String × Model)) := do
  let members ← n.asMembers?
  let models ← members.mapM fun p => (modelOfYaml? p.2).map (p.1, ·)
  some (sortModels models)

/-- A field that the reader of the whole has to miss: all fields that are there are well formed. -/
def missingIn (defaultModel : Option String) (models : Option (List (String × Model)))
    (policy : Policy) (timeout : Nat) : Except Complaint Config :=
  match defaultModel, models with
  | none, _ => .error (.missing "default_model")
  | some _, none => .error (.missing "models")
  | some d, some ms => .ok ⟨d, ms, policy, timeout⟩

/-- A configuration. -/
def ofYaml (n : Node) : Except Complaint Config :=
  match n with
  | .scalar _ _ text => .error (if n.isWord then .word text else .other)
  | n =>
    match (do
      let members ← n.asMembers?
      let defaultModel ← memberOr? "default_model" none (fun v => v.asText?.map some) members
      let models ← memberOr? "models" none (fun v => (modelsOfYaml? v).map some) members
      let policy ← memberOr? "rate_limit" Policy.standard policyOfYaml? members
      let timeout ← memberOr? "request_timeout_secs" standardTimeout
        (Node.asNatural? (Nat.pow 2 64)) members
      some (missingIn defaultModel models policy timeout)) with
    | some result => result
    | none => .error .other

/-- Read a configuration. -/
def parseYaml (text : String) : Except Complaint Config :=
  match Node.parse? text with
  | some n => ofYaml n
  | none => .error .other

end CodeReview.Config

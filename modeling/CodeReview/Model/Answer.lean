import CodeReview.Model.Request
import CodeReview.Json.Reader
import CodeReview.Json.Record
import CodeReview.Text.Blank

/-!
# What a model answers

Reading the text out of an answer in each of the three formats, and the message out of the body of
a refusal.

An answer is malformed when it is no JSON value or one of its known parts has the wrong kind.  A
well-formed answer has no text when the text is blank or absent; otherwise the text is taken as it
is, without trimming.
-/

namespace CodeReview

open CodeReview.Json CodeReview.Text

/-- The parts of an answer that matter. -/
structure Answer where
  /-- All text of the answer. -/
  text : String
  /-- Tokens of the request and of the answer. -/
  usage : Option (Nat × Nat)
  /-- The answer ended because it had reached its limit. -/
  cutOff : Bool
  deriving Repr, DecidableEq

namespace Answer

/-- The text of an answer, unless it is blank. -/
def text? (a : Answer) : Option String :=
  if allBlank a.text then none else some a.text

/-- Counts of tokens under two names. -/
def usage? (asked answered : String) (v : Value) : Option (Nat × Nat) := do
  match ← fields? [asked, answered] v with
  | [a, b] => some (← required? asWord? a, ← required? asWord? b)
  | _ => none

/-- The content of a message in a role. -/
def messageContent? (v : Value) : Option String := do
  match ← fields? ["role", "content"] v with
  | [role, content] =>
    let _ ← required? asText? role
    required? asText? content
  | _ => none

/-- The content of a choice. -/
def choice? (v : Value) : Option String := do
  match ← fields? ["message", "finish_reason"] v with
  | [message, reason] =>
    let content ← required? messageContent? message
    let _ ← orElse? none (asOptional? asText?) reason
    some content
  | _ => none

/-- An answer whose text is the content of its first choice. -/
def ofChoices? (v : Value) : Option Answer := do
  match ← fields? ["model", "choices", "usage"] v with
  | [model, choices, usage] =>
    let _ ← orElse? none (asOptional? asText?) model
    let contents ← orElse? [] (asList? choice?) choices
    let usage ← orElse? none (asOptional? (usage? "prompt_tokens" "completion_tokens")) usage
    some ⟨contents.headD "", usage, false⟩
  | _ => none

/-- The kind of a block and its text. -/
def block? (v : Value) : Option (String × Option String) := do
  match ← fields? ["type", "text"] v with
  | [kind, text] =>
    let kind ← required? asText? kind
    let text ← orElse? none (asOptional? asText?) text
    some (kind, text)
  | _ => none

/-- An answer whose text is that of all its text blocks. -/
def ofBlocks? (v : Value) : Option Answer := do
  match ← fields? ["content", "stop_reason", "usage"] v with
  | [content, reason, usage] =>
    let blocks ← orElse? [] (asList? block?) content
    let reason ← orElse? none (asOptional? asText?) reason
    let usage ← orElse? none (asOptional? (usage? "input_tokens" "output_tokens")) usage
    let texts := (blocks.filter fun b => b.1 == "text").filterMap (·.2)
    some ⟨String.join texts, usage, reason == some "max_tokens"⟩
  | _ => none

/-- The text of a part; a part of another kind has none. -/
def part? (v : Value) : Option String := do
  match ← fields? ["text"] v with
  | [text] => orElse? "" asText? text
  | _ => none

/-- The texts of the parts of a content. -/
def content? (v : Value) : Option (List String) := do
  match ← fields? ["role", "parts"] v with
  | [role, parts] =>
    let _ ← orElse? none (asOptional? asText?) role
    orElse? [] (asList? part?) parts
  | _ => none

/-- The texts of a candidate. -/
def candidate? (v : Value) : Option (List String) := do
  match ← fields? ["content", "finishReason"] v with
  | [content, reason] =>
    let texts ← orElse? none (asOptional? content?) content
    let _ ← orElse? none (asOptional? asText?) reason
    some (texts.getD [])
  | _ => none

/-- An answer whose text is that of all parts of its first candidate. -/
def ofCandidates? (v : Value) : Option Answer := do
  match ← fields? ["candidates"] v with
  | [candidates] =>
    let all ← orElse? [] (asList? candidate?) candidates
    some ⟨String.join (all.headD []), none, false⟩
  | _ => none

end Answer

namespace Dialect

/-- Read a value as an answer. -/
def answer? : Dialect → Value → Option Answer
  | completions => Answer.ofChoices?
  | messages => Answer.ofBlocks?
  | contents => Answer.ofCandidates?

/-- Read the body of an answer. -/
def read? (d : Dialect) (body : String) : Option Answer :=
  (Json.parse? body).bind d.answer?

end Dialect

namespace Refusal

/-- The kind of a refusal, if it has one, and its message. -/
def detail? (v : Value) : Option (Option String × String) := do
  match ← fields? ["type", "status", "message"] v with
  | [kind, status, message] =>
    let kind ← orElse? none (asOptional? asText?) kind
    let status ← orElse? none (asOptional? asText?) status
    let message ← required? asText? message
    some (kind.orElse fun _ => status, message)
  | _ => none

/-- The refusal in the body of a response. -/
def read? (body : String) : Option (Option String × String) := do
  match ← fields? ["error"] (← Json.parse? body) with
  | [error] => required? detail? error
  | _ => none

/-- The message in the body of a refusal, or the body itself where it has no such message. -/
def describe (body : String) : String :=
  match read? body with
  | some (some kind, message) => kind ++ ": " ++ message
  | some (none, message) => message
  | none => if allBlank body then "empty response body" else trim body

end Refusal

end CodeReview

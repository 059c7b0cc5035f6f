import CodeReview.Model.Basic
import CodeReview.Prompt.Message
import CodeReview.Json.Value

/-!
# What a model is asked

The three formats in which hosted models take requests.  All of them carry the system prompt, the
user message, the limit on tokens and the temperature; they differ in the names and the nesting
of the parts, in where the model is named and in how the key is shown.
-/

namespace CodeReview

open CodeReview.Json CodeReview.Prompt

/-- A format of requests and answers. -/
inductive Dialect where
  /-- Chat completions, which most services understand. -/
  | completions
  /-- Messages with a system text of their own. -/
  | messages
  /-- Contents made of parts. -/
  | contents
  deriving Repr, DecidableEq

/-- The format that a provider understands. -/
def Provider.dialect : Provider → Dialect
  | anthropic => .messages
  | gemini => .contents
  | openai | deepseek | other => .completions

namespace Dialect

/-- A text said in a role. -/
def said (role content : String) : Value :=
  .record [("role", .text role), ("content", .text content)]

/-- A number as a value; numbers without JSON form are null. -/
def numberValue (x : Number.Single) : Value :=
  match x.jsonText? with
  | some t => .number t
  | none => .null

/-- Parts that hold one text. -/
def partsOf (text : String) : String × Value :=
  ("parts", .array [.record [("text", .text text)]])

/-- The body of a request. -/
def body (prompt source : String) (m : Model) : Dialect → Value
  | completions =>
    .record [("model", .text m.name),
      ("messages", .array [said "system" systemPrompt, said "user" (message prompt source)]),
      ("max_tokens", .nat m.maxTokens), ("temperature", numberValue m.temperature),
      ("stream", .bool false)]
  | messages =>
    .record [("model", .text m.name), ("system", .text systemPrompt),
      ("max_tokens", .nat m.maxTokens), ("temperature", numberValue m.temperature),
      ("messages", .array [said "user" (message prompt source)])]
  | contents =>
    .record [("contents", .array [.record [("role", .text "user"),
        partsOf (message prompt source)]]),
      ("systemInstruction", .record [partsOf systemPrompt]),
      ("generationConfig", .record [("temperature", numberValue m.temperature),
        ("maxOutputTokens", .nat m.maxTokens), ("candidateCount", .nat 1)])]

/-- The address that a request is sent to, below the base of the endpoint. -/
def address (base : String) (m : Model) : Dialect → String
  | completions => base ++ "/chat/completions"
  | messages => base ++ "/messages"
  | contents => base ++ "/models/" ++ m.name ++ ":generateContent"

end Dialect

/-- The body of the request that asks a model, in the format of its provider. -/
def Model.requestBody (m : Model) (prompt source : String) : Value :=
  m.provider.dialect.body prompt source m

end CodeReview

import CodeReview.Http.Exchange
import CodeReview.Http.Status
import CodeReview.Model.Answer

/-!
# Asking models

A question goes to the provider of its model, with the key from the environment, in the provider's
format; the answer is read in the same format.  Nothing is sent for a model without address or key.

The body of an answer is read as text, so a body that is not UTF-8 is refused as a whole.  A reader
of bytes checks only the strings that it keeps; it also accepts bodies in which the bytes that are no
text stand in strings that nothing is made of.
-/

namespace CodeReview

open CodeReview.Text CodeReview.Http

namespace ServiceFault

/-- What the message of a fault starts with. -/
def Kind.title : Kind → String
  | api => "API Error"
  | network => "Network Error"
  | serialization => "Serialization Error"
  | authentication => "Authentication Error"
  | timeout => "Request timed out"
  | configuration => "Configuration Error"

/-- The wording of a fault. -/
def message (f : ServiceFault) : String := f.kind.title ++ ": " ++ f.reason

/-- A fault of an exchange as the fault of the service. -/
def ofExchange (f : Fault) : ServiceFault :=
  let kind := match f with
    | .late _ => Kind.timeout
    | .unreadable => Kind.serialization
    | _ => Kind.network
  ⟨kind, f.message⟩

/-- A response that does not grant what was asked, with the text of its body. -/
def ofRefusal (status : Nat) (body : String) : ServiceFault :=
  let message := Refusal.describe body
  if status == 401 || status == 403 then ⟨.authentication, message⟩
  else if status == 429 then ⟨.api, "Rate limit exceeded: " ++ message⟩
  else ⟨.api, "HTTP " ++ statusLine status ++ ": " ++ message⟩

end ServiceFault

namespace Model

/-- The key of a model: the value of its variable without blank ends, unless that is blank. -/
def key (m : Model) (value? : Option String) : Except ServiceFault String :=
  match value?.filter (!allBlank ·) with
  | some value => .ok (trim value)
  | none =>
    .error ⟨.configuration, "API key for model '" ++ m.name ++ "' not found. Set the " ++
      m.keyName ++ " environment variable"⟩

/-- The address of a model's endpoint. -/
def base (m : Model) : Except ServiceFault String :=
  match m.baseUrl? with
  | some base => .ok base
  | none =>
    .error ⟨.configuration, "Model '" ++ m.name ++ "' uses provider '" ++ m.provider.name ++
      "' which requires api_base"⟩

end Model

namespace Dialect

/-- The version of the messages format. -/
def messagesVersion : String := "2023-06-01"

/-- The headers that show a key. -/
def keyHeaders (key : String) : Dialect → List (String × String)
  | completions => [("authorization", "Bearer " ++ key), ("accept", "application/json")]
  | messages => [("x-api-key", key), ("anthropic-version", messagesVersion)]
  | contents => []

/-- The address with the key in its query, where the format has it there. -/
def keyed (key : String) (url : Url) : Dialect → Url
  | completions | messages => url
  | contents =>
    let field := "key=" ++ Url.formEncode key
    { url with query := some (match url.query with
        | none | some "" => field
        | some q => q ++ "&" ++ field) }

/-- The request for a question. -/
def request (d : Dialect) (base key : String) (q : Question) : Except Fault Request :=
  (Http.address (d.address base q.model)).bind fun url =>
    build .post (d.keyed key url) (d.keyHeaders key)
      (some (d.body q.prompt q.source q.model).write)

/-- The complaint about an answer without text. -/
def emptyText : Dialect → String
  | completions => "No content in response"
  | messages => "No text content in response"
  | contents => "No candidates in response"

/-- What is logged about an answer. -/
def remarks (m : Model) (a : Answer) : Dialect → Act Unit
  | completions =>
    match a.usage with
    | some (asked, answered) =>
      Act.log .debug ("🔢 Tokens: " ++ toString asked ++ " prompt, " ++ toString answered ++
        " completion")
    | none => pure ()
  | messages => do
    match a.usage with
    | some (asked, answered) =>
      Act.log .debug ("🔢 Tokens: " ++ toString asked ++ " input, " ++ toString answered ++
        " output")
    | none => pure ()
    if a.cutOff then
      Act.log .warn ("⚠️ Response was cut off at max_tokens (" ++ toString m.maxTokens ++ ")")
  | contents => pure ()

end Dialect

namespace Question

/-- Read the answer in a response, of which the body has to be text throughout. -/
def readAnswer (q : Question) (r : Response) : Act (Except ServiceFault String) := do
  let d := q.model.provider.dialect
  if !r.isSuccess then
    pure (.error (.ofRefusal r.status (match r.text with
      | .ok body => body
      | .error _ => "Unknown error")))
  else
    match if r.whole then (String.fromUTF8? ⟨r.body.toArray⟩).bind d.read? else none with
    | none => pure (.error ⟨.serialization, Fault.message .unreadable⟩)
    | some a => do
      d.remarks q.model a
      pure (match a.text? with
        | some text => .ok text
        | none => .error ⟨.serialization, d.emptyText⟩)

/-- Ask over the network. -/
def askNetwork (timeout : Duration) (q : Question) : Act (Except ServiceFault String) := do
  let m := q.model
  match m.base with
  | .error e => pure (.error e)
  | .ok base =>
    match m.key ((← get).setting? m.keyName) with
    | .error e => pure (.error e)
    | .ok key => do
      let d := m.provider.dialect
      Act.log .debug ("🔌 Routing '" ++ m.name ++ "' through " ++ m.provider.name)
      Act.log .debug ("📦 Request model: " ++ m.name ++ " -> " ++ d.address base m)
      match d.request base key q with
      | .error e => pure (.error (.ofExchange e))
      | .ok request =>
        match ← send timeout request with
        | .error e => pure (.error (.ofExchange e))
        | .ok response => q.readAnswer response

/-- Ask where the machine takes its answers from.  The user may interrupt a rehearsal; there is no
answer then. -/
def ask (timeout : Duration) (q : Question) : Act (Option (Except ServiceFault String)) := do
  Act.note (.consulted q)
  let m ← get
  match m.models with
  | .network => some <$> q.askNetwork timeout
  | .rehearsal reply =>
    Act.note (.asked q)
    match reply m.questionsAsked with
    | .given delay answer => do
      Act.pass delay
      pure (some answer)
    | .interrupted => pure none

end Question

end CodeReview

import CodeReview.Http.Charset
import CodeReview.Machine
import CodeReview.Text.Base64
import CodeReview.Url.Reference

/-!
# Exchanging requests for responses

Building requests, sending them and following redirects.  A request that cannot be built is never
sent.  All redirects of a request together have to come in time, and there may be at most ten.
-/

namespace CodeReview.Http

open CodeReview.Text

/-- The name under which requests are sent. -/
def userAgent : String := "reverse-engineer/0.3.0"

/-- A text that may be the value of a header: no controls but the tab. -/
def isHeaderValue (s : String) : Bool :=
  s.toList.all fun c => c == '\t' || (0x20 ≤ c.toNat && c.toNat != 0x7F)

/-- Longest address that can be sent. -/
def maxAddress : Nat := 65534

/-- An address that can be sent as it is written. -/
def isSendable (u : Url) : Bool :=
  u.text.utf8ByteSize ≤ maxAddress &&
    !((u.host.elim "" Url.Host.text).toList.any fun c => ['"', '\x60', '\x7b', '\x7d'].contains c)

/-- User name and password as the value of a header, if the address has any that are text. -/
def credentials? (u : Url) : Option String := do
  let name ← String.fromUTF8? ⟨(Url.decode u.username.toList).toArray⟩
  let word := u.password.bind fun p => String.fromUTF8? ⟨(Url.decode p.toList).toArray⟩
  if name == "" && word.isNone then none
  else some ("Basic " ++ String.ofList (base64 (name ++ ":" ++ word.getD "").toUTF8.toList))

/-- Read the address of a request, which has to name a host. -/
def address (text : String) : Except Fault Url :=
  match Url.parse? text with
  | none => .error (.unbuildable none)
  | some url => if url.host.isSome then .ok url else .error (.unbuildable (some url))

/-- Build a request.  User name and password move from the address into a header. -/
def build (method : Method) (url : Url) (headers : List (String × String))
    (body : Option String) : Except Fault Request :=
  let (url, headers) := match credentials? url with
    | some c => ({ url with username := "", password := none }, ("authorization", c) :: headers)
    | none => (url, headers)
  if !headers.all (isHeaderValue ·.2) then .error (.unbuildable none)
  else if !url.isWeb || !isSendable url then .error (.unbuildable (some url))
  else
    let accept := if headers.any (·.1 == "accept") then [] else [("accept", "*/*")]
    let typed := if body.isSome then [("content-type", "application/json")] else []
    .ok ⟨method, url, headers ++ typed ++ accept ++ [("user-agent", userAgent)], body⟩

/-- Where a response sends the request on to, if it does. -/
def Response.target? (r : Response) (asked : Url) : Option Url :=
  if [301, 302, 303, 307, 308].contains r.status then
    ((r.location.bind (Url.resolve? asked)).filter isSendable)
  else none

/-- The request that follows a redirect: only two statuses keep method and body, and the header
that shows a key stays with its server. -/
def Request.redirected (r : Request) (status : Nat) (target : Url) : Request :=
  let keeps := status == 307 || status == 308 || r.method = .get
  let sameServer := target.host = r.url.host && target.scheme = r.url.scheme &&
    target.port = r.url.port
  ⟨if keeps then r.method else .get, target,
    r.headers.filter fun h =>
      (sameServer || h.1 ≠ "authorization") && (keeps || h.1 ≠ "content-type"),
    if keeps then r.body else none⟩

/-- Redirects that are followed. -/
def maxRedirects : Nat := 10

/-- Send a request once. -/
def sendOnce (r : Request) : Act Outcome :=
  modifyGet fun m =>
    let outcome := m.network m.requestsSent r
    (outcome, m.note (.sent r outcome))

/-- Send a request within the time that is left; a redirect goes on as `onward` says, with the time
that is left then. -/
def attempt (onward : Duration → Response → Url → Act (Except Fault Response)) (left : Duration)
    (r : Request) : Act (Except Fault Response) := do
  match ← sendOnce r with
  | .refused => pure (.error (.unsent r.url))
  | .answered delay response =>
    Act.pass (min delay left)
    if left ≤ delay then pure (.error (.late r.url))
    else
      match response.target? r.url with
      | none => pure (.ok response)
      | some target => onward (left - delay) response target

/-- Send a request and follow at most `hops` redirects within the time that is left. -/
def sendWithin : Nat → Duration → Request → Act (Except Fault Response)
  | 0, left, r => attempt (fun _ _ _ => pure (.error (.astray r.url))) left r
  | hops + 1, left, r =>
    attempt (fun left response target =>
      if !target.isWeb then pure (.error (.unbuildable (some target)))
      else sendWithin hops left (r.redirected response.status target)) left r

/-- Send a request. -/
def send (timeout : Duration) (r : Request) : Act (Except Fault Response) :=
  sendWithin maxRedirects timeout r

/-- The text of a response. -/
def Response.text (r : Response) : Except Fault String :=
  if r.whole then .ok (bodyText r.contentType r.body) else .error .unreadable

end CodeReview.Http

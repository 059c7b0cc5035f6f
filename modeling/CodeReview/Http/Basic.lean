import CodeReview.Duration
import CodeReview.Url.Reader

/-!
# Requests and responses

What is sent to a server, what may come back, and why there may be no response that can be used.
-/

namespace CodeReview.Http

/-- The method of a request. -/
inductive Method where
  | get
  | post
  deriving Repr, DecidableEq

/-- The name of a method. -/
def Method.name : Method → String
  | get => "GET"
  | post => "POST"

/-- A request. -/
structure Request where
  method : Method
  url : Url
  /-- Names in lower case, and values. -/
  headers : List (String × String)
  body : Option String
  deriving Repr, DecidableEq

/-- A response. -/
structure Response where
  status : Nat
  contentType : Option String
  location : Option String
  body : List UInt8
  /-- The body arrived as long as it was announced. -/
  whole : Bool
  deriving Repr, DecidableEq

/-- What becomes of a request that is sent. -/
inductive Outcome where
  /-- No server answers. -/
  | refused
  /-- A server answers after a while. -/
  | answered (delay : Duration) (response : Response)
  deriving Repr, DecidableEq

/-- Why there is no response, or none that can be used. -/
inductive Fault where
  /-- The request cannot be built; the address is known where it could be read. -/
  | unbuildable (url : Option Url)
  /-- Nothing came back. -/
  | unsent (url : Url)
  /-- Nothing came back in time. -/
  | late (url : Url)
  /-- There were too many redirects. -/
  | astray (url : Url)
  /-- The body of the response cannot be read. -/
  | unreadable
  deriving Repr, DecidableEq

/-- A text and the address it is about. -/
def about (text : String) (url : Url) : String := text ++ " for url (" ++ url.text ++ ")"

/-- The wording of a fault. -/
def Fault.message : Fault → String
  | unbuildable none => "builder error"
  | unbuildable (some url) => about "builder error" url
  | unsent url | late url => about "error sending request" url
  | astray url => about "error following redirect" url
  | unreadable => "error decoding response body"

/-- A response that grants what was asked. -/
def Response.isSuccess (r : Response) : Bool := 200 ≤ r.status && r.status < 300

end CodeReview.Http

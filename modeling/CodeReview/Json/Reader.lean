import CodeReview.Json.Token

/-!
# Reading JSON

A stack machine over tokens.  Containers that are open stand on the stack with the parts they
have so far, so nesting has no limit.
-/

namespace CodeReview.Json

/-- A container that is open; its parts are held last first. -/
inductive Frame where
  | items (done : List Value)
  /-- An object whose member of this key is under way. -/
  | members (done : List (Option String × Value)) (key : Option String)
  deriving Repr

/-- What may come next. -/
inductive Reading where
  /-- A value; `fresh` allows the end of an array that was just opened. -/
  | value (stack : List Frame) (fresh : Bool)
  /-- A key; `fresh` allows the end of an object that was just opened. -/
  | key (done : List (Option String × Value)) (stack : List Frame) (fresh : Bool)
  /-- The colon after a key. -/
  | colon (done : List (Option String × Value)) (key : Option String) (stack : List Frame)
  /-- What follows a complete value. -/
  | after (v : Value) (stack : List Frame)
  deriving Repr

/-- Read one token. -/
def Reading.read? : Reading → Token → Option Reading
  | value st _, .simple v => some (after v st)
  | value st _, .openArray => some (value (.items [] :: st) true)
  | value st _, .openObject => some (key [] st true)
  | value (.items _ :: st) true, .closeArray => some (after (.array []) st)
  | key done st _, .simple (.string k) => some (colon done k st)
  | key _ st true, .closeObject => some (after (.object []) st)
  | colon done k st, .colon => some (value (.members done k :: st) false)
  | after v (.items done :: st), .comma => some (value (.items (v :: done) :: st) false)
  | after v (.items done :: st), .closeArray => some (after (.array (v :: done).reverse) st)
  | after v (.members done k :: st), .comma => some (key ((k, v) :: done) st false)
  | after v (.members done k :: st), .closeObject =>
    some (after (.object ((k, v) :: done).reverse) st)
  | _, _ => none

/-- The value of a token list, read on from a state. -/
def valueFrom (state : Reading) : List Token → Option Value
  | [] =>
    match state with
    | .after v [] => some v
    | _ => none
  | t :: rest =>
    match state.read? t with
    | none => none
    | some state => valueFrom state rest

/-- The value of a text that holds one value and blanks around it. -/
def parse? (s : String) : Option Value :=
  (tokens? s.toList).bind (valueFrom (.value [] false))

end CodeReview.Json

import CodeReview.Json.Value

/-!
# JSON tokens

A text is cut into punctuation and complete simple values.  The lexer reads one character at a
time; `Lexing` says what it is in the middle of.

In a string, two escapes of surrogate code points in a row make up one character; any other
escaped surrogate leaves the string without text.
-/

namespace CodeReview.Json

open CodeReview.Text

/-- A piece of JSON text. -/
inductive Token where
  | openArray
  | closeArray
  | openObject
  | closeObject
  | colon
  | comma
  /-- A value without parts. -/
  | simple (v : Value)
  deriving Repr

/-- A string under way: its characters last first, the first half of a pair of escapes, and
whether all escapes so far made up characters. -/
structure Spelled where
  done : List Char
  high : Option Nat
  sound : Bool
  deriving Repr, DecidableEq

namespace Spelled

/-- Nothing read yet. -/
def start : Spelled := ⟨[], none, true⟩

/-- Add a character. -/
def push (s : Spelled) (c : Char) : Spelled :=
  ⟨c :: s.done, none, s.sound && s.high.isNone⟩

/-- Add an escaped code unit. -/
def pushUnit (s : Spelled) (n : Nat) : Spelled :=
  if 0xD800 ≤ n && n ≤ 0xDBFF then ⟨s.done, some n, s.sound && s.high.isNone⟩
  else if 0xDC00 ≤ n && n ≤ 0xDFFF then
    match s.high with
    | some h =>
      ⟨Char.ofNat (0x10000 + (h - 0xD800) * 0x400 + (n - 0xDC00)) :: s.done, none, s.sound⟩
    | none => ⟨s.done, none, false⟩
  else s.push (Char.ofNat n)

/-- The string value. -/
def value (s : Spelled) : Value :=
  .string (if s.sound && s.high.isNone then some (String.ofList s.done.reverse) else none)

end Spelled

/-- What the lexer is in the middle of. -/
inductive Lexing where
  | outside
  /-- Characters of a number, last first. -/
  | number (done : List Char)
  /-- Characters of a word, last first. -/
  | word (done : List Char)
  | string (s : Spelled)
  /-- After a backslash. -/
  | escape (s : Spelled)
  /-- Within the digits of an escaped code unit. -/
  | unit (s : Spelled) (left value : Nat)
  deriving Repr, DecidableEq

/-- At least one digit and nothing else. -/
def allDigits (s : List Char) : Bool := !s.isEmpty && s.all Char.isDigit

/-- The exponent of a number, or nothing. -/
def isExponent : List Char → Bool
  | [] => true
  | c :: rest =>
    (c == 'e' || c == 'E') &&
      match rest with
      | '+' :: ds => allDigits ds
      | '-' :: ds => allDigits ds
      | ds => allDigits ds

/-- What may follow the whole digits of a number. -/
def isNumberTail : List Char → Bool
  | '.' :: rest =>
    !(rest.takeWhile Char.isDigit).isEmpty && isExponent (rest.dropWhile Char.isDigit)
  | s => isExponent s

/-- The grammar of numbers. -/
def isNumber (s : List Char) : Bool :=
  let body := match s with
    | '-' :: rest => rest
    | s => s
  match body with
  | '0' :: rest => isNumberTail rest
  | c :: rest => c.isDigit && isNumberTail (rest.dropWhile Char.isDigit)
  | [] => false

/-- The value of a complete number. -/
def numberToken? (done : List Char) : Option Token :=
  let s := done.reverse
  if isNumber s then some (.simple (.number (String.ofList s))) else none

/-- The value of a complete word. -/
def wordToken? (done : List Char) : Option Token :=
  let s := String.ofList done.reverse
  if s == "null" then some (.simple .null)
  else if s == "true" then some (.simple (.bool true))
  else if s == "false" then some (.simple (.bool false))
  else none

/-- A character of a number after its first. -/
def inNumber (c : Char) : Bool :=
  c.isDigit || c == '.' || c == 'e' || c == 'E' || c == '+' || c == '-'

/-- Read a character that belongs to no value under way. -/
def outside? (c : Char) : Option (List Token × Lexing) :=
  if c == ' ' || c == '\n' || c == '\t' || c == '\r' then some ([], .outside)
  else if c == '[' then some ([.openArray], .outside)
  else if c == ']' then some ([.closeArray], .outside)
  else if c == '\x7b' then some ([.openObject], .outside)
  else if c == '\x7d' then some ([.closeObject], .outside)
  else if c == ':' then some ([.colon], .outside)
  else if c == ',' then some ([.comma], .outside)
  else if c == '"' then some ([], .string .start)
  else if c == '-' || c.isDigit then some ([], .number [c])
  else if c.isLower then some ([], .word [c])
  else none

/-- The character that a one-letter escape stands for. -/
def escaped? (c : Char) : Option Char :=
  if c == '"' || c == '\\' || c == '/' then some c
  else if c == 'b' then some '\x08'
  else if c == 'f' then some '\x0c'
  else if c == 'n' then some '\n'
  else if c == 'r' then some '\r'
  else if c == 't' then some '\t'
  else none

/-- A complete token followed by what the next character starts. -/
def andThen? (t : Option Token) (c : Char) : Option (List Token × Lexing) :=
  match t, outside? c with
  | some t, some (ts, l) => some (t :: ts, l)
  | _, _ => none

/-- Read one character: the tokens that it completes. -/
def Lexing.read? : Lexing → Char → Option (List Token × Lexing)
  | outside, c => outside? c
  | number done, c =>
    if inNumber c then some ([], number (c :: done)) else andThen? (numberToken? done) c
  | word done, c =>
    if c.isLower then some ([], word (c :: done)) else andThen? (wordToken? done) c
  | string s, c =>
    if c == '"' then some ([.simple s.value], outside)
    else if c == '\\' then some ([], escape s)
    else if c.toNat < 0x20 then none
    else some ([], string (s.push c))
  | escape s, c =>
    if c == 'u' then some ([], unit s 4 0)
    else (escaped? c).map fun d => ([], string (s.push d))
  | unit s left value, c =>
    (hexValue? c).map fun d =>
      let value := value * 16 + d
      if left ≤ 1 then ([], string (s.pushUnit value)) else ([], unit s (left - 1) value)

/-- The token that the end of the text completes. -/
def Lexing.finish? : Lexing → Option (List Token)
  | outside => some []
  | number done => (numberToken? done).map ([·])
  | word done => (wordToken? done).map ([·])
  | _ => none

/-- The tokens of a text; those found so far are held last first. -/
def tokensFrom (state : Lexing) (done : List Token) : List Char → Option (List Token)
  | [] => state.finish?.map fun ts => (ts.reverse ++ done).reverse
  | c :: rest =>
    match state.read? c with
    | none => none
    | some (ts, state) => tokensFrom state (ts.reverse ++ done) rest

/-- The tokens of a text. -/
def tokens? (s : List Char) : Option (List Token) :=
  tokensFrom .outside [] s

end CodeReview.Json

import CodeReview.Text.Digit

/-!
# JSON values

A value keeps numbers as they are written, and the members of an object in order, repeated keys
included.  A string whose escapes do not make up characters has no text; it is well-formed all the
same, as only a reader that wants its text has to refuse it.

`Value.write` gives the compact form.  Only the double quote, the backslash and control characters
are escaped.
-/

namespace CodeReview.Json

open CodeReview.Text

/-- A JSON value. -/
inductive Value where
  | null
  | bool (b : Bool)
  | number (text : String)
  | string (text : Option String)
  | array (items : List Value)
  | object (members : List (Option String × Value))
  deriving Repr

namespace Value

/-- A string value. -/
def text (s : String) : Value := string (some s)

/-- A whole number. -/
def nat (n : Nat) : Value := number (toString n)

/-- An object from keys and values. -/
def record (members : List (String × Value)) : Value :=
  object (members.map fun m => (some m.1, m.2))

end Value

/-- One character within a string. -/
def escapeChar (c : Char) : List Char :=
  if c = '"' then ['\\', '"']
  else if c = '\\' then ['\\', '\\']
  else if c = '\n' then ['\\', 'n']
  else if c = '\r' then ['\\', 'r']
  else if c = '\t' then ['\\', 't']
  else if c = '\x08' then ['\\', 'b']
  else if c = '\x0c' then ['\\', 'f']
  else if c.toNat < 0x20 then
    ['\\', 'u', '0', '0', lowerHex (c.toNat / 16), lowerHex (c.toNat % 16)]
  else [c]

/-- A string with its quotes. -/
def quote (s : String) : List Char :=
  '"' :: s.toList.flatMap escapeChar ++ ['"']

mutual

/-- The characters of the compact form. -/
def Value.chars : Value → List Char
  | .null => "null".toList
  | .bool true => "true".toList
  | .bool false => "false".toList
  | .number t => t.toList
  | .string t => quote (t.getD "")
  | .array items => '[' :: Value.itemChars items ++ [']']
  | .object members => '\x7b' :: Value.memberChars members ++ ['\x7d']

/-- Values with commas between. -/
def Value.itemChars : List Value → List Char
  | [] => []
  | [v] => v.chars
  | v :: w :: rest => v.chars ++ ',' :: Value.itemChars (w :: rest)

/-- Keys and values with commas between. -/
def Value.memberChars : List (Option String × Value) → List Char
  | [] => []
  | [(k, v)] => quote (k.getD "") ++ ':' :: v.chars
  | (k, v) :: m :: rest =>
    quote (k.getD "") ++ ':' :: v.chars ++ ',' :: Value.memberChars (m :: rest)

end

/-- The compact form of a value. -/
def Value.write (v : Value) : String := String.ofList v.chars

end CodeReview.Json

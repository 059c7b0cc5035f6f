import CodeReview.Text.Digit
import CodeReview.Text.Utf8

/-!
# Percent-encoding

Bytes outside a part's plain characters are written as a percent sign and two hexadecimal digits.
The plain characters differ from part to part of a URL; characters outside ASCII and control
characters are never plain.
-/

namespace CodeReview.Url

open CodeReview.Text

/-- The bytes of a character. -/
def bytesOf (c : Char) : List UInt8 :=
  (String.singleton c).toUTF8.toList

/-- A byte as a percent sign and two digits. -/
def percentByte (b : UInt8) : List Char :=
  ['%', upperHex (b.toNat / 16), upperHex (b.toNat % 16)]

/-- Control characters and characters outside ASCII, which are encoded everywhere. -/
def isControl (c : Char) : Bool :=
  c.toNat < 0x20 || 0x7E < c.toNat

/-- Characters encoded in a fragment. -/
def inFragmentSet (c : Char) : Bool :=
  isControl c || c == ' ' || c == '"' || c == '<' || c == '>' || c == '\x60'

/-- Characters encoded in a query; a special scheme adds the apostrophe. -/
def inQuerySet (special : Bool) (c : Char) : Bool :=
  isControl c || c == ' ' || c == '"' || c == '#' || c == '<' || c == '>' ||
    (special && c == '\'')

/-- Characters encoded in a path segment. -/
def inPathSet (c : Char) : Bool :=
  inFragmentSet c || c == '#' || c == '?' || c == '\x7b' || c == '\x7d'

/-- Characters encoded in a user name or password. -/
def inUserSet (c : Char) : Bool :=
  inPathSet c || c == '/' || c == ':' || c == ';' || c == '=' || c == '@' || c == '[' ||
    c == '\\' || c == ']' || c == '^' || c == '|'

/-- One character, encoded when it belongs to the set. -/
def encodeChar (set : Char → Bool) (c : Char) : List Char :=
  if set c then (bytesOf c).flatMap percentByte else [c]

/-- A text with the characters of the set encoded. -/
def encode (set : Char → Bool) (s : List Char) : List Char :=
  s.flatMap (encodeChar set)

/-- The bytes of a text in which percent signs followed by two hexadecimal digits stand for one
byte; `done` holds the bytes read, last first. -/
def decodeFrom (done : List UInt8) : List Char → List UInt8
  | '%' :: a :: b :: rest =>
    match hexValue? a, hexValue? b with
    | some x, some y => decodeFrom (UInt8.ofNat (16 * x + y) :: done) rest
    | _, _ => decodeFrom (0x25 :: done) (a :: b :: rest)
  | c :: rest => decodeFrom ((bytesOf c).reverse ++ done) rest
  | [] => done.reverse

/-- The bytes that a percent-encoded text stands for. -/
def decode (s : List Char) : List UInt8 :=
  decodeFrom [] s

/-- A byte of a form field: letters, digits and four marks are plain, a space is a plus sign. -/
def formByte (b : UInt8) : List Char :=
  let c := Char.ofNat b.toNat
  if b == 0x20 then ['+']
  else if c.isAlphanum || c == '*' || c == '-' || c == '.' || c == '_' then [c]
  else percentByte b

/-- A text as a name or value of a form. -/
def formEncode (s : String) : String :=
  String.ofList (s.toUTF8.toList.flatMap formByte)

end CodeReview.Url

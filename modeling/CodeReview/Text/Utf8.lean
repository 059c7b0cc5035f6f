/-!
# Bytes and text

Reading bytes as UTF-8: strictly, with the place of the first fault, and leniently, with a
replacement character for each faulty part.  A faulty part is a longest start of a well-formed
sequence, or a single byte where no sequence starts.
-/

namespace CodeReview.Text

/-- The character that stands for bytes that are no text. -/
def replacement : Char := '\ufffd'

/-- The next character of a byte sequence, or how many bytes its faulty start has. -/
inductive Decoded where
  | char (c : Char) (size : Nat)
  /-- `truncated` holds when the sequence ends before the character does. -/
  | fault (size : Nat) (truncated : Bool)
  deriving Repr, DecidableEq

/-- A byte that continues a sequence. -/
def isContinuation (b : UInt8) : Bool := 0x80 ≤ b && b ≤ 0xBF

/-- How many bytes follow a first byte, and the bounds of the first of them. -/
def following? (b : UInt8) : Option (Nat × UInt8 × UInt8) :=
  if 0xC2 ≤ b && b ≤ 0xDF then some (1, 0x80, 0xBF)
  else if b == 0xE0 then some (2, 0xA0, 0xBF)
  else if b == 0xED then some (2, 0x80, 0x9F)
  else if 0xE1 ≤ b && b ≤ 0xEF then some (2, 0x80, 0xBF)
  else if b == 0xF0 then some (3, 0x90, 0xBF)
  else if 0xF1 ≤ b && b ≤ 0xF3 then some (3, 0x80, 0xBF)
  else if b == 0xF4 then some (3, 0x80, 0x8F)
  else none

/-- Add the payload of continuation bytes to `code`; `want` bytes are still to come and `size`
bytes have been read. -/
def decodeRest (code size : Nat) : Nat → List UInt8 → Decoded
  | 0, _ => .char (Char.ofNat code) size
  | _ + 1, [] => .fault size true
  | want + 1, b :: rest =>
    if isContinuation b then decodeRest (code * 64 + (b.toNat - 0x80)) (size + 1) want rest
    else .fault size false

/-- Decode the first character of a byte sequence that starts with `b`. -/
def decodeFirst (b : UInt8) (rest : List UInt8) : Decoded :=
  if b < 0x80 then .char (Char.ofNat b.toNat) 1
  else
    match following? b with
    | none => .fault 1 false
    | some (want, low, high) =>
      match rest with
      | [] => .fault 1 true
      | c :: rest =>
        if low ≤ c && c ≤ high then
          let lead := b.toNat % (if want == 1 then 32 else if want == 2 then 16 else 8)
          decodeRest (lead * 64 + (c.toNat - 0x80)) 2 (want - 1) rest
        else .fault 1 false

/-- Bytes that the step consumed. -/
def Decoded.size : Decoded → Nat
  | char _ n => n
  | fault n _ => n

/-- Characters of a byte sequence, faulty parts replaced; `skip` bytes are already consumed and
`done` holds the characters read, last first. -/
def decodeFrom : Nat → List Char → List UInt8 → List Char
  | _, done, [] => done.reverse
  | skip + 1, done, _ :: rest => decodeFrom skip done rest
  | 0, done, b :: rest =>
    match decodeFirst b rest with
    | .char c n => decodeFrom (n - 1) (c :: done) rest
    | .fault n _ => decodeFrom (n - 1) (replacement :: done) rest

/-- The text of a byte sequence, with a replacement character for each faulty part. -/
def ofBytes (bytes : List UInt8) : String :=
  String.ofList (decodeFrom 0 [] bytes)

/-- The text of a byte array, with a replacement character for each faulty part. -/
def lenient (bytes : ByteArray) : String :=
  (String.fromUTF8? bytes).getD (ofBytes bytes.toList)

/-- The first faulty part of a byte sequence: its place and the step that failed there. -/
def firstFaultFrom : Nat → Nat → List UInt8 → Option (Nat × Decoded)
  | _, _, [] => none
  | skip + 1, pos, _ :: rest => firstFaultFrom skip (pos + 1) rest
  | 0, pos, b :: rest =>
    match decodeFirst b rest with
    | .char _ n => firstFaultFrom (n - 1) (pos + 1) rest
    | .fault n t => some (pos, .fault n t)

/-- The wording of the first fault of a byte sequence that is no text. -/
def faultText (bytes : List UInt8) : String :=
  match firstFaultFrom 0 0 bytes with
  | some (pos, .fault n false) =>
    "invalid utf-8 sequence of " ++ toString n ++ " bytes from index " ++ toString pos
  | some (pos, _) => "incomplete utf-8 byte sequence from index " ++ toString pos
  | none => ""

end CodeReview.Text

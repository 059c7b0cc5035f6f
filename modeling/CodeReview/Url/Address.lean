import CodeReview.Url.Percent
import CodeReview.Text.Split

/-!
# Numeric addresses

Reading and writing the two kinds of numeric hosts.  A host whose last label is a number must be an
address of four parts or fewer, each in decimal, octal or hexadecimal, the last of which fills the
remaining bytes.  A host in brackets is eight groups of hexadecimal digits, of which one run of
zeros may be left out and the last two may be written as four decimal bytes.
-/

namespace CodeReview.Url

open CodeReview.Text

/-- One part of a four-byte address: hexadecimal after `0x`, octal after `0`, else decimal. -/
def addressPart? : List Char → Option Nat
  | [] => none
  | '0' :: 'x' :: rest => inBase? 16 rest
  | '0' :: 'X' :: rest => inBase? 16 rest
  | '0' :: c :: rest => inBase? 8 (c :: rest)
  | s => inBase? 10 s

/-- The labels of a host, without an empty one at the end. -/
def addressLabels (host : List Char) : List (List Char) :=
  let labels := splitOn (· == '.') host
  if 1 < labels.length && labels.getLast? == some [] then labels.dropLast else labels

/-- Whether the last label is a number, so that the host must be an address. -/
def endsInNumber (host : List Char) : Bool :=
  if host.isEmpty then false
  else
    match (addressLabels host).getLast? with
    | some [] => false
    | some label => label.all Char.isDigit ||
        (match label with
          | '0' :: 'x' :: rest => (inBase? 16 rest).isSome
          | '0' :: 'X' :: rest => (inBase? 16 rest).isSome
          | _ => false)
    | none => false

/-- The value of a four-byte address. -/
def readV4? (host : List Char) : Option Nat :=
  let labels := addressLabels host
  if 4 < labels.length then none
  else do
    let parts ← labels.mapM addressPart?
    let last ← parts.getLast?
    let init := parts.dropLast
    if init.any (255 < ·) || Nat.pow 256 (5 - parts.length) ≤ last then none
    else
      let high := init.foldl (fun n p => n * 256 + p) 0
      some (high * Nat.pow 256 (5 - parts.length) + last)

/-- A four-byte address in decimal. -/
def writeV4 (n : Nat) : String :=
  ".".intercalate
    ([n / Nat.pow 256 3, n / Nat.pow 256 2 % 256, n / 256 % 256, n % 256].map toString)

/-- A decimal byte without leading zeros. -/
def byte? (s : List Char) : Option Nat :=
  match s with
  | [] => none
  | '0' :: _ :: _ => none
  | s =>
    if s.length ≤ 3 && s.all Char.isDigit then
      (inBase? 10 s).filter (· < 256)
    else none

/-- Four decimal bytes as two groups. -/
def dotted? (s : List Char) : Option (List Nat) :=
  match (splitOn (· == '.') s).mapM byte? with
  | some [a, b, c, d] => some [a * 256 + b, c * 256 + d]
  | _ => none

/-- A group of one to four hexadecimal digits. -/
def group? (s : List Char) : Option Nat :=
  if s.isEmpty || 4 < s.length then none else inBase? 16 s

/-- Groups separated by colons, the last of which may be four decimal bytes. -/
def groups? : List (List Char) → Option (List Nat)
  | [] => some []
  | [s] => if s.contains '.' then dotted? s else (group? s).map fun g => [g]
  | s :: rest => do
    let g ← group? s
    let gs ← groups? rest
    some (g :: gs)

/-- Groups of a text that may be empty. -/
def groupsOf? (s : List Char) : Option (List Nat) :=
  if s.isEmpty then some [] else groups? (splitOn (· == ':') s)

/-- What stands before and after the first double colon. -/
def splitGap : List Char → Option (List Char × List Char)
  | [] => none
  | ':' :: ':' :: rest => some ([], rest)
  | c :: rest => (splitGap rest).map fun p => (c :: p.1, p.2)

/-- The eight groups of an address in brackets. -/
def readV6? (s : List Char) : Option (List Nat) :=
  match splitGap s with
  | none => (groupsOf? s).filter (·.length == 8)
  | some (before, after) =>
    if before.contains '.' then none
    else do
      let a ← groupsOf? before
      let b ← groupsOf? after
      if a.length + b.length < 8 then
        some (a ++ List.replicate (8 - a.length - b.length) 0 ++ b)
      else none

/-- Length of the run of zeros at the front. -/
def zeros (s : List Nat) : Nat := (s.takeWhile (· == 0)).length

/-- Place and length of the first longest run of zeros in a list whose front is at `pos`. -/
def longestZeros (pos : Nat) (best : Nat × Nat) : List Nat → Nat × Nat
  | [] => best
  | g :: rest =>
    let run := zeros (g :: rest)
    longestZeros (pos + 1) (if best.2 < run then (pos, run) else best) rest

/-- Groups in hexadecimal with colons between. -/
def joinGroups (s : List Nat) : String :=
  ":".intercalate (s.map fun g => String.ofList (Nat.toDigits 16 g))

/-- Eight groups, with the first longest run of at least two zeros left out. -/
def writeV6 (groups : List Nat) : String :=
  let (start, run) := longestZeros 0 (0, 0) groups
  if run < 2 then joinGroups groups
  else joinGroups (groups.take start) ++ "::" ++ joinGroups (groups.drop (start + run))

end CodeReview.Url

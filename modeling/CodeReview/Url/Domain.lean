import CodeReview.Text.LowerCase
import CodeReview.Text.Printable
import CodeReview.Url.Address
import CodeReview.Url.Punycode

/-!
# Names of hosts

The ASCII form of a host name.  Characters are folded to lower case, those that only affect
appearance are dropped, and each label with characters outside ASCII is coded.  Names with
characters that no name may hold are refused.

The folding covers single-character lower-case forms and full-width forms; compositions of several
characters are taken as they are written.
-/

namespace CodeReview.Url

open CodeReview.Text

/-- Characters that are dropped from a name: soft hyphen, zero-width marks, variation selectors. -/
def isIgnored (c : Char) : Bool :=
  let n := c.toNat
  n == 0xAD || n == 0x34F || (0x180B ≤ n && n ≤ 0x180D) || n == 0x180F || n == 0x200B ||
    n == 0x2060 || n == 0x2064 || n == 0xFEFF || (0xFE00 ≤ n && n ≤ 0xFE0F) ||
    (0x1BCA0 ≤ n && n ≤ 0x1BCA3) || (0xE0100 ≤ n && n ≤ 0xE01EF)

/-- Characters that no name may hold. -/
def isForbidden (c : Char) : Bool :=
  let n := c.toNat
  if n < 0x80 then n ≤ 0x20 || n == 0x7F || "#/:<>?@[\\]^|%".toList.contains c
  else n == 0xFFFD || inRanges invisibleRanges n

/-- A label of a folded name that may stay outside ASCII: it does not start with a mark. -/
def isWideLabel (label : List Char) : Bool :=
  match label with
  | [] => true
  | c :: _ => !inRanges extenderRanges c.toNat

/-- A coded label stands for a folded label with a character outside ASCII. -/
def isCodedLabel (code : List Char) : Bool :=
  match Punycode.decode? code with
  | none => false
  | some label =>
    label.any (0x80 ≤ ·.toNat) &&
    label.all (fun c => fold c == c && !isIgnored c && !isForbidden c) &&
      isWideLabel label && Punycode.encode label == code

/-- The ASCII form of a folded label. -/
def labelToAscii? (label : List Char) : Option (List Char) :=
  if label.all (·.toNat < 0x80) then
    match label with
    | 'x' :: 'n' :: '-' :: '-' :: code => if isCodedLabel code then some label else none
    | _ => some label
  else if isWideLabel label && !"xn--".toList.isPrefixOf label then
    some ("xn--".toList ++ Punycode.encode label)
  else none

/-- The ASCII form of a host name given as bytes. -/
def domainToAscii? (bytes : List UInt8) : Option (List Char) :=
  match String.fromUTF8? ⟨bytes.toArray⟩ with
  | none => none
  | some s =>
    let folded := (s.toList.filter (!isIgnored ·)).map fold
    if folded.any isForbidden then none
    else
      ((splitOn (· == '.') folded).mapM labelToAscii?).map fun labels =>
        ['.'].intercalate labels

end CodeReview.Url

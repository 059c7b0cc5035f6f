import CodeReview.Number.Decimal
import CodeReview.Text.Blank

/-!
# 32-bit floating-point numbers

A `Single` is not a number, an infinity, or a finite magnitude in units of two to the power of
minus 149 with a sign.  The sign of zero is kept.

Two written forms are given, both with the fewest digits that read back as the same number:
`plain` never has an exponent, `Single.jsonText?` has one for large and small magnitudes and
leaves numbers without a JSON form out.
-/

namespace CodeReview.Number

open CodeReview.Text

/-- A 32-bit floating-point number. -/
inductive Single where
  | nan
  | infinite (negative : Bool)
  /-- The magnitude is a number of units. -/
  | finite (negative : Bool) (units : Nat)
  deriving Repr, DecidableEq

namespace Single

/-- Units that make up the number one. -/
def unitsPerOne : Nat := Nat.pow 2 Format.single.unitBits

/-- The nearest single to a signed quotient. -/
def ofQuotient (negative : Bool) (num den : Nat) : Single :=
  match Format.single.round num den with
  | some n => finite negative n
  | none => infinite negative

/-- The nearest single to a signed decimal number. -/
def ofDecimal (negative : Bool) (d : Decimal) : Single :=
  match d.round Format.single with
  | some n => finite negative n
  | none => infinite negative

/-- The nearest single to a whole number. -/
def ofInt (n : Int) : Single :=
  ofQuotient (n < 0) n.natAbs 1

/-- The nearest single to the double nearest to a decimal number; absent when the double is not
finite. -/
def ofDecimalViaDouble? (negative : Bool) (d : Decimal) : Option Single :=
  (d.round Format.double).map fun n => ofQuotient negative n (Nat.pow 2 Format.double.unitBits)

/-- At least zero and at most one. -/
def inUnitInterval : Single → Bool
  | finite negative n => (!negative && n ≤ unitsPerOne) || n == 0
  | _ => false

/-- Split off a sign. -/
def signed : List Char → Bool × List Char
  | '-' :: rest => (true, rest)
  | '+' :: rest => (false, rest)
  | s => (false, s)

/-- Read a numeral with an optional sign; the words `inf`, `infinity` and `nan` are read
regardless of case. -/
def ofText? (s : String) : Option Single :=
  let (negative, body) := signed s.toList
  let name := body.map Char.toLower
  if name == "inf".toList || name == "infinity".toList then some (infinite negative)
  else if name == "nan".toList then some nan
  else (Decimal.ofChars? body).map (ofDecimal negative)

/-- Digits `ds` times ten to the power of `k`, written without exponent. -/
def positional (ds : List Char) (k : Int) : List Char :=
  if 0 ≤ k then ds ++ List.replicate k.toNat '0'
  else
    let places := (-k).toNat
    if places < ds.length then ds.take (ds.length - places) ++ '.' :: ds.drop (ds.length - places)
    else '0' :: '.' :: (List.replicate (places - ds.length) '0' ++ ds)

/-- Drop the zeros at the end of a significand. -/
def stripZeros : Nat → Decimal → Decimal
  | 0, d => d
  | fuel + 1, d =>
    if d.significand % 10 == 0 && d.significand != 0 then
      stripZeros fuel ⟨d.significand / 10, d.exponent + 1⟩
    else d

/-- Digits and exponent of the shortest numeral of a positive magnitude. -/
def shortest (n : Nat) : List Char × Int :=
  let d := stripZeros 60 (Format.single.shortest n)
  (digits d.significand, d.exponent)

/-- The sign as written. -/
def signText (negative : Bool) : String := if negative then "-" else ""

/-- The shortest numeral without exponent; whole numbers have no point. -/
def plain : Single → String
  | nan => "NaN"
  | infinite negative => signText negative ++ "inf"
  | finite negative 0 => signText negative ++ "0"
  | finite negative n =>
    let (ds, k) := shortest n
    signText negative ++ String.ofList (positional ds k)

/-- The shortest numeral as a JSON number.  The decimal point always stands among or beside
digits; numbers of more than thirteen whole digits, and those with six or more zeros after the
point, are written with an exponent that always has a sign. -/
def jsonText? : Single → Option String
  | nan => none
  | infinite _ => none
  | finite negative 0 => some (signText negative ++ "0.0")
  | finite negative n =>
    let (ds, k) := shortest n
    let whole := (ds.length : Int) + k
    let body :=
      if 0 ≤ k && whole ≤ 13 then positional ds k ++ ['.', '0']
      else if -6 < whole && whole ≤ 13 then positional ds k
      else
        let e :=
          if 0 < whole then '+' :: digits (whole - 1).toNat else '-' :: digits (1 - whole).toNat
        match ds with
        | [d] => d :: 'e' :: e
        | d :: rest => d :: '.' :: rest ++ 'e' :: e
        | [] => []
    some (signText negative ++ String.ofList body)

end Single

end CodeReview.Number

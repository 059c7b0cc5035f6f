import CodeReview.Number.Rounding

/-!
# Decimal numerals

Reading a decimal numeral with an optional point and exponent, the digits of a natural number,
and two ways to write a quotient in decimal: with the fewest digits that still single out a
binary number, and with a fixed number of places.
-/

namespace CodeReview.Number

/-- Digits of a natural number, most significant first. -/
def digits (n : Nat) : List Char :=
  Nat.toDigits 10 n

/-- Value of a list of decimal digits. -/
def ofDigits (s : List Char) : Nat :=
  s.foldl (fun n c => 10 * n + (c.toNat - 48)) 0

/-- The number `significand * 10 ^ exponent`. -/
structure Decimal where
  significand : Nat
  exponent : Int
  deriving Repr, DecidableEq

namespace Decimal

/-- The number as a quotient. -/
def quotient (d : Decimal) : Nat × Nat :=
  if 0 ≤ d.exponent then (d.significand * Nat.pow 10 d.exponent.toNat, 1)
  else (d.significand, Nat.pow 10 (-d.exponent).toNat)

/-- Read the exponent part that may follow the digits: nothing, or `e` or `E`, an optional sign
and at least one digit. -/
def exponent? : List Char → Option Int
  | [] => some 0
  | c :: rest =>
    if c == 'e' || c == 'E' then
      let (negative, ds) := match rest with
        | '-' :: ds => (true, ds)
        | '+' :: ds => (false, ds)
        | ds => (false, ds)
      if ds.isEmpty || !ds.all Char.isDigit then none
      else some (if negative then -(ofDigits ds : Int) else (ofDigits ds : Int))
    else none

/-- Read a numeral without sign: digits with an optional point, at least one digit in all, and
an optional exponent. -/
def ofChars? (s : List Char) : Option Decimal :=
  let whole := s.takeWhile Char.isDigit
  let rest := s.dropWhile Char.isDigit
  let (places, tail) := match rest with
    | '.' :: r => (r.takeWhile Char.isDigit, r.dropWhile Char.isDigit)
    | r => ([], r)
  if whole.isEmpty && places.isEmpty then none
  else (exponent? tail).map fun e => ⟨ofDigits (whole ++ places), e - places.length⟩

/-- The nearest magnitude of a format, in units; absent when it is not finite.  A number far
outside the format's range is settled by its order of magnitude alone. -/
def round (f : Format) (d : Decimal) : Option Nat :=
  if d.significand == 0 then some 0
  else
    let order := (digits d.significand).length + d.exponent
    if 400 < order then none
    else if order < -400 then some 0
    else f.round d.quotient.1 d.quotient.2

end Decimal

/-- The whole number `k` with `10 ^ k ≤ num / den < 10 ^ (k + 1)`, for positive `num` and
`den`. -/
def log10 (num den : Nat) : Int :=
  let a := (digits num).length
  let b := (digits den).length
  if den * Nat.pow 10 (a - b) ≤ num * Nat.pow 10 (b - a) then (a : Int) - b else (a : Int) - b - 1

/-- The decimal number that has the fewest digits among those in the interval, and of these is
nearest to its middle.

All arguments are numerators over the one denominator `den`; the ends belong to the interval
when `closed` holds.  At most `fuel` digits are tried, on the grid of powers of ten given by the
exponent `k` and below. -/
def shortestFrom (low mid high den : Nat) (closed : Bool) : Nat → Int → Decimal
  | 0, k => ⟨roundDiv (mid * Nat.pow 10 (-k).toNat) (den * Nat.pow 10 k.toNat), k⟩
  | fuel + 1, k =>
    let up := Nat.pow 10 (-k).toNat
    let step := den * Nat.pow 10 k.toNat
    let below := mid * up / step
    let inside (c : Nat) : Bool :=
      if closed then low * up ≤ c * step && c * step ≤ high * up
      else low * up < c * step && c * step < high * up
    match inside below, inside (below + 1) with
    | false, false => shortestFrom low mid high den closed fuel (k - 1)
    | true, false => ⟨below, k⟩
    | false, true => ⟨below + 1, k⟩
    | true, true => ⟨roundDiv (mid * up) step, k⟩

/-- The shortest decimal number that rounds to the positive magnitude of `n` units. -/
def Format.shortest (f : Format) (n : Nat) : Decimal :=
  let s := f.shift n
  let m := n / Nat.pow 2 s
  let gap := Nat.pow 2 s
  let below := if m == Nat.pow 2 (f.precision - 1) && 0 < s then gap else 2 * gap
  let den := 4 * Nat.pow 2 f.unitBits
  shortestFrom (4 * n - below) (4 * n) (4 * n + 2 * gap) den (m % 2 == 0) 20 (log10 (4 * n) den)

/-- `num / den` with exactly `places` digits after the point, halves to even. -/
def fixed (places num den : Nat) : String :=
  let n := roundDiv (num * Nat.pow 10 places) den
  let whole := String.ofList (digits (n / Nat.pow 10 places))
  if places == 0 then whole
  else
    let ds := digits (n % Nat.pow 10 places)
    whole ++ "." ++ String.ofList (List.replicate (places - ds.length) '0' ++ ds)

end CodeReview.Number

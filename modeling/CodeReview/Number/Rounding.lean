/-!
# Rounding to binary floating point

Every finite number of a binary format is a whole multiple of the format's smallest positive
number, its *unit*.  A magnitude is therefore held as a natural number of units, and all
comparisons are between natural numbers.

`Format.round` gives the nearest magnitude of a format to a quotient of natural numbers; a
quotient halfway between two neighbours goes to the one with the even significand.  Overflow is
reported by the absence of a result.
-/

namespace CodeReview.Number

/-- The quotient of `num` by `den`, rounded to the nearest natural number, halves to even. -/
def roundDiv (num den : Nat) : Nat :=
  let q := num / den
  let r := num % den
  if den < 2 * r || (2 * r == den && q % 2 == 1) then q + 1 else q

/-- A binary floating-point format. -/
structure Format where
  /-- Bits of the significand. -/
  precision : Nat
  /-- The unit is two to the power of minus this number. -/
  unitBits : Nat
  /-- The largest finite magnitude is `(2 ^ precision - 1) * 2 ^ maxShift` units. -/
  maxShift : Nat
  deriving Repr, DecidableEq

namespace Format

/-- The 32-bit format. -/
def single : Format := ⟨24, 149, 253⟩

/-- The 64-bit format. -/
def double : Format := ⟨53, 1074, 2045⟩

/-- Trailing bits of a magnitude of `n` units that its significand leaves out. -/
def shift (f : Format) (n : Nat) : Nat :=
  if n < Nat.pow 2 f.precision then 0 else n.log2 + 1 - f.precision

/-- The magnitude, in units, nearest to `num / den`; absent when it is not finite. -/
def round (f : Format) (num den : Nat) : Option Nat :=
  let scaled := num * Nat.pow 2 f.unitBits
  let s := f.shift (scaled / den)
  let n := roundDiv scaled (den * Nat.pow 2 s) * Nat.pow 2 s
  if n < Nat.pow 2 f.precision * Nat.pow 2 f.maxShift then some n else none

end Format

end CodeReview.Number

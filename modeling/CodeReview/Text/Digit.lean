/-!
# Digits of any base up to sixteen

The value of a digit, the digit of a value in either case of letters, and the value of a row of
digits.
-/

namespace CodeReview.Text

/-- Value of a hexadecimal digit. -/
def hexValue? (c : Char) : Option Nat :=
  if c.isDigit then some (c.toNat - 48)
  else if 'a' ≤ c && c ≤ 'f' then some (c.toNat - 87)
  else if 'A' ≤ c && c ≤ 'F' then some (c.toNat - 55)
  else none

/-- A lower-case hexadecimal digit. -/
def lowerHex (n : Nat) : Char :=
  if n < 10 then Char.ofNat (48 + n) else Char.ofNat (87 + n)

/-- An upper-case hexadecimal digit. -/
def upperHex (n : Nat) : Char :=
  if n < 10 then Char.ofNat (48 + n) else Char.ofNat (55 + n)

/-- Value of a row of digits, if all are digits of the base; an empty row counts as zero. -/
def inBase? (base : Nat) (s : List Char) : Option Nat :=
  s.foldlM (fun n c => ((hexValue? c).filter (· < base)).map (n * base + ·)) 0

/-- The character of a code point, if there is one. -/
def charOf? (n : Nat) : Option Char :=
  if (Char.ofNat n).toNat == n then some (Char.ofNat n) else none

end CodeReview.Text

/-!
# Punycode

The coding of a label with characters outside ASCII by one within ASCII: the plain characters,
a hyphen, and for each other character, in rising order, the distance from the one before as a
number of variable length.  Digits have weights that depend on a bias, which adapts to the
distances seen so far.
-/

namespace CodeReview.Url.Punycode

/-- The digit of a value below 36. -/
def digitChar (d : Nat) : Char :=
  if d < 26 then Char.ofNat (97 + d) else Char.ofNat (22 + d)

/-- The value of a digit. -/
def digitValue? (c : Char) : Option Nat :=
  if 'a' ≤ c && c ≤ 'z' then some (c.toNat - 97)
  else if 'A' ≤ c && c ≤ 'Z' then some (c.toNat - 65)
  else if c.isDigit then some (c.toNat - 22)
  else none

/-- The least value that does not end a number at weight position `k`. -/
def threshold (bias k : Nat) : Nat :=
  if k ≤ bias then 1 else min 26 (k - bias)

/-- Bring a distance below 456, counting 36 for each division by 35. -/
def damp (delta k : Nat) : Nat × Nat :=
  if 455 < delta then damp (delta / 35) (k + 36) else (delta, k)
termination_by delta
decreasing_by exact Nat.div_lt_self (by omega) (by omega)

/-- The bias after a distance, when `count` characters are known. -/
def adapt (delta count : Nat) (first : Bool) : Nat :=
  let d := if first then delta / 700 else delta / 2
  let (r, k) := damp (d + d / count) 0
  k + 36 * r / (r + 38)

/-- A number as digits. -/
def writeNumber (bias k q : Nat) : List Char :=
  if q < threshold bias k ∨ threshold bias k = 0 then [digitChar q]
  else
    digitChar (threshold bias k + (q - threshold bias k) % (36 - threshold bias k)) ::
      writeNumber bias (k + 36) ((q - threshold bias k) / (36 - threshold bias k))
termination_by q
decreasing_by
  have := Nat.div_le_self (q - threshold bias k) (36 - threshold bias k)
  omega

/-- What an encoder knows: its output, the distance so far, the bias and the characters done. -/
structure Progress where
  out : List Char
  delta : Nat
  bias : Nat
  known : Nat

/-- Meet one character of the label while those equal to `m` are being written. -/
def Progress.meet (basic m : Nat) (p : Progress) (c : Char) : Progress :=
  if c.toNat < m then { p with delta := p.delta + 1 }
  else if c.toNat == m then
    ⟨p.out ++ writeNumber p.bias 36 p.delta, 0, adapt p.delta (p.known + 1) (p.known == basic),
      p.known + 1⟩
  else p

/-- Write the characters with the code points `targets`, which are in rising order. -/
def writeTargets (label : List Char) (basic : Nat) : List Nat → Nat → Progress → List Char
  | [], _, p => p.out
  | m :: rest, n, p =>
    let p := { p with delta := p.delta + (m - n) * (p.known + 1) }
    let p := label.foldl (Progress.meet basic m) p
    writeTargets label basic rest (m + 1) { p with delta := p.delta + 1 }

/-- The coded form of a label. -/
def encode (label : List Char) : List Char :=
  let plain := label.filter (·.toNat < 0x80)
  let targets := ((label.map Char.toNat).filter (0x80 ≤ ·)).eraseDups.mergeSort
  plain ++ (if plain.isEmpty then [] else ['-']) ++
    writeTargets label plain.length targets 128 ⟨[], 0, 72, plain.length⟩

/-- Read one number: what it adds to `i`, and the digits after it. -/
def readNumber? (bias : Nat) : Nat → Nat → Nat → List Char → Option (Nat × List Char)
  | _, _, _, [] => none
  | k, w, i, c :: rest =>
    match digitValue? c with
    | none => none
    | some d =>
      let t := threshold bias k
      if d < t then some (i + d * w, rest)
      else readNumber? bias (k + 36) (w * (36 - t)) (i + d * w) rest

/-- Read numbers until the input ends; at most `fuel` of them. -/
def readTargets? : Nat → Nat → Nat → Nat → List Char → List Char → Option (List Char)
  | _, _, _, _, out, [] => some out
  | 0, _, _, _, _, _ :: _ => none
  | fuel + 1, n, i, bias, out, input =>
    match readNumber? bias 36 1 i input with
    | none => none
    | some (j, rest) =>
      let size := out.length + 1
      let n := n + j / size
      let place := j % size
      if n < 0x110000 && (Char.ofNat n).toNat == n then
        readTargets? fuel n (place + 1) (adapt (j - i) size (i == 0))
          (out.take place ++ Char.ofNat n :: out.drop place) rest
      else none

/-- The characters before the last hyphen, and those after it. -/
def splitLastHyphen (s : List Char) : List Char × List Char :=
  let tail := (s.reverse.takeWhile (· ≠ '-')).reverse
  (s.take (s.length - tail.length - 1), tail)

/-- The label that a coded form stands for. -/
def decode? (s : List Char) : Option (List Char) :=
  let (plain, tail) := splitLastHyphen s
  readTargets? tail.length 128 0 72 plain tail

end CodeReview.Url.Punycode

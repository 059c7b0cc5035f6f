import CodeReview.Text.Digit
import CodeReview.Toml.Value

/-!
# TOML literals

Strings, numbers and moments as they are written in a document.  Each reader takes the text from
where the literal starts and gives the literal with the text behind it, or nothing where the text
is not well formed.

Numbers may have underscores between digits.  A decimal number has no leading zeros.  Moments are
dates, times of day, or both with an optional offset; they are checked against the calendar.
-/

namespace CodeReview.Toml

open CodeReview.Number CodeReview.Text

/-- A reader: a value and the text behind it. -/
abbrev Reading (α : Type) := List Char → Option (α × List Char)

/-- A character that may stand in a comment or between quotes. -/
def isVisible (c : Char) : Bool := c == '\t' || (0x20 ≤ c.toNat && c.toNat != 0x7F)

/-- A space or a tab. -/
def isSpace (c : Char) : Bool := c == ' ' || c == '\t'

/-- Go past spaces and tabs. -/
def skipSpace (s : List Char) : List Char := s.dropWhile isSpace

/-- Go past a line end, if there is one here. -/
def lineEnd? : List Char → Option (List Char)
  | '\n' :: rest => some rest
  | '\r' :: '\n' :: rest => some rest
  | _ => none

/-! ## Strings -/

/-- Exactly `n` hexadecimal digits that are the number of a character. -/
def numbered? (n : Nat) (s : List Char) : Option (Char × List Char) :=
  if s.length < n then none
  else ((inBase? 16 (s.take n)).bind charOf?).map (·, s.drop n)

/-- What a backslash and the text behind it stand for. -/
def escape? : Reading Char
  | 'b' :: rest => some ('\x08', rest)
  | 't' :: rest => some ('\t', rest)
  | 'n' :: rest => some ('\n', rest)
  | 'f' :: rest => some ('\x0c', rest)
  | 'r' :: rest => some ('\r', rest)
  | '"' :: rest => some ('"', rest)
  | '\\' :: rest => some ('\\', rest)
  | 'u' :: rest => numbered? 4 rest
  | 'U' :: rest => numbered? 8 rest
  | _ => none

/-- A way to write a string. -/
structure Quotes where
  mark : Char
  /-- Backslashes are escapes. -/
  escapes : Bool
  /-- Three marks at either end; lines may end inside. -/
  long : Bool

/-- Put a character in front of what is read next. -/
def consText (c : Char) : Option (List Char × List Char) → Option (List Char × List Char) :=
  Option.map fun p => (c :: p.1, p.2)

/-- Blank space over several lines, of which the first is at its end here. -/
def joinLines? (s : List Char) : Option (List Char) :=
  (lineEnd? (skipSpace s)).map fun rest =>
    let rec more : Nat → List Char → List Char
      | 0, r => r
      | fuel + 1, r =>
        match lineEnd? (skipSpace r) with
        | some r => more fuel r
        | none => skipSpace r
    more rest.length rest

/-- The inside of a string up to its closing marks.  A run of marks closes a long string from the
third on, and up to two more marks before them belong to the string. -/
def inside? (q : Quotes) : Nat → List Char → Option (List Char × List Char)
  | 0, _ => none
  | _ + 1, [] => none
  | fuel + 1, c :: rest =>
    if c == q.mark then
      if !q.long then some ([], rest)
      else
        let run := (c :: rest).takeWhile (· == q.mark)
        let after := (c :: rest).dropWhile (· == q.mark)
        if run.length < 3 then
          (inside? q fuel after).map fun p => (run ++ p.1, p.2)
        else
          let kept := min (run.length - 3) 2
          some (run.take kept, run.drop (kept + 3) ++ after)
    else if c == '\\' && q.escapes then
      match if q.long then joinLines? rest else none with
      | some rest => inside? q fuel rest
      | none => (escape? rest).bind fun p => consText p.1 (inside? q fuel p.2)
    else
      match if q.long then lineEnd? (c :: rest) else none with
      | some rest => consText '\n' (inside? q fuel rest)
      | none => if isVisible c then consText c (inside? q fuel rest) else none

/-- The inside of a string and the text behind it. -/
def quoted? (q : Quotes) (s : List Char) : Option (String × List Char) :=
  let body := if q.long then (lineEnd? s).getD s else s
  (inside? q (body.length + 1) body).map fun p => (String.ofList p.1, p.2)

/-- A string on one line, as it also stands in a key. -/
def shortString? : Reading String
  | '"' :: rest => quoted? ⟨'"', true, false⟩ rest
  | '\'' :: rest => quoted? ⟨'\'', false, false⟩ rest
  | _ => none

/-- A string. -/
def string? : Reading String
  | '"' :: '"' :: '"' :: rest => quoted? ⟨'"', true, true⟩ rest
  | '\'' :: '\'' :: '\'' :: rest => quoted? ⟨'\'', false, true⟩ rest
  | s => shortString? s

/-! ## Numbers -/

/-- Digits with single underscores between them; the underscores are left out. -/
def digitRun? (isDigit : Char → Bool) : Reading (List Char)
  | [] => none
  | c :: rest =>
    if !isDigit c then none
    else
      match rest with
      | '_' :: d :: more =>
        if isDigit d then consText c (digitRun? isDigit (d :: more)) else none
      | ['_'] => none
      | d :: more =>
        if isDigit d then consText c (digitRun? isDigit (d :: more)) else some ([c], d :: more)
      | [] => some ([c], [])

/-- Digits of a decimal number: a lone zero, or digits of which the first is no zero. -/
def wholeDigits? : Reading (List Char)
  | '0' :: rest => some (['0'], rest)
  | s => digitRun? Char.isDigit s

/-- The digits after a point. -/
def places? : Reading (List Char)
  | '.' :: rest => digitRun? Char.isDigit rest
  | _ => none

/-- The exponent of ten after its letter. -/
def power? : Reading Int
  | c :: rest =>
    if c == 'e' || c == 'E' then
      let (negative, rest) := Single.signed rest
      (digitRun? Char.isDigit rest).map fun p =>
        (if negative then -(ofDigits p.1 : Int) else ofDigits p.1, p.2)
    else none
  | [] => none

/-- A number with a point, an exponent or both, as a single that passed through the 64-bit format.
Above the range of the format it is refused, below it is infinite. -/
def float? (s : List Char) : Option (Value × List Char) :=
  let (negative, body) := Single.signed s
  (wholeDigits? body).bind fun (whole, rest) =>
    let finish (places : List Char) (exponent : Int) (rest : List Char) :
        Option (Value × List Char) :=
      let d : Decimal := ⟨ofDigits (whole ++ places), exponent - places.length⟩
      match Single.ofDecimalViaDouble? negative d with
      | some x => some (.float x, rest)
      | none => if negative then some (.float (.infinite true), rest) else none
    match places? rest with
    | some (places, rest) =>
      match power? rest with
      | some (e, rest) => finish places e rest
      | none => finish places 0 rest
    | none => (power? rest).bind fun (e, rest) => finish [] e rest

/-- Infinity or not a number. -/
def special? (s : List Char) : Option (Value × List Char) :=
  let (negative, body) := Single.signed s
  match body with
  | 'i' :: 'n' :: 'f' :: rest => some (.float (.infinite negative), rest)
  | 'n' :: 'a' :: 'n' :: rest => some (.float .nan, rest)
  | _ => none

/-- A whole number of at most 64 bits; in bases other than ten it has no sign. -/
def integer? (s : List Char) : Option (Value × List Char) :=
  let inBase (base : Nat) (rest : List Char) : Option (Nat × List Char) :=
    (digitRun? (fun c => (hexValue? c).any (· < base)) rest).bind fun p =>
      (inBase? base p.1).map (·, p.2)
  let bounded (negative : Bool) (p : Nat × List Char) : Option (Value × List Char) :=
    let n : Int := if negative then -p.1 else p.1
    if -(Nat.pow 2 63) ≤ n && n < Nat.pow 2 63 then some (.integer n, p.2) else none
  match s with
  | '0' :: 'x' :: rest => (inBase 16 rest).bind (bounded false)
  | '0' :: 'o' :: rest => (inBase 8 rest).bind (bounded false)
  | '0' :: 'b' :: rest => (inBase 2 rest).bind (bounded false)
  | s =>
    let (negative, body) := Single.signed s
    (wholeDigits? body).bind fun p => bounded negative (ofDigits p.1, p.2)

/-! ## Moments -/

/-- Exactly `n` digits of a number between two bounds. -/
def field? (n low high : Nat) (s : List Char) : Option (Nat × List Char) :=
  let ds := s.take n
  let v := ofDigits ds
  if ds.length == n && ds.all Char.isDigit && low ≤ v && v ≤ high then some (v, s.drop n) else none

/-- A given character. -/
def mark? (c : Char) : List Char → Option (List Char)
  | d :: rest => if c == d then some rest else none
  | [] => none

/-- Days of a month. -/
def daysIn (year month : Nat) : Nat :=
  if month == 2 then
    if year % 4 == 0 && (year % 100 != 0 || year % 400 == 0) then 29 else 28
  else if [4, 6, 9, 11].contains month then 30
  else 31

/-- A date; gives the text behind it. -/
def date? (s : List Char) : Option (List Char) := do
  let (year, s) ← field? 4 0 9999 s
  let (month, s) ← field? 2 1 12 (← mark? '-' s)
  let (_, s) ← field? 2 1 (daysIn year month) (← mark? '-' s)
  some s

/-- A time of day; gives the text behind it. -/
def time? (s : List Char) : Option (List Char) := do
  let (_, s) ← field? 2 0 23 s
  let (_, s) ← field? 2 0 59 (← mark? ':' s)
  let (_, s) ← field? 2 0 60 (← mark? ':' s)
  match s with
  | '.' :: d :: rest =>
    if d.isDigit then some (rest.dropWhile Char.isDigit) else some s
  | s => some s

/-- An offset from universal time; nothing where none is written, and refused where it is
incomplete. -/
def offset? : List Char → Option (List Char)
  | [] => some []
  | c :: rest =>
    if c == 'Z' || c == 'z' then some rest
    else if c == '+' || c == '-' then do
      let (_, s) ← field? 2 0 23 rest
      let (_, s) ← field? 2 0 59 (← mark? ':' s)
      some s
    else some (c :: rest)

/-- A date, a time or both; gives the text behind it. -/
def moment? (s : List Char) : Option (List Char) :=
  match date? s with
  | none => time? s
  | some [] => some []
  | some (c :: rest) =>
    if c == 'T' || c == 't' || c == ' ' then
      match time? rest with
      | some rest => offset? rest
      | none => some (c :: rest)
    else some (c :: rest)

/-- A moment or a number. -/
def numeral? (s : List Char) : Option (Value × List Char) :=
  match moment? s with
  | some rest => some (.moment, rest)
  | none => (float? s).or ((special? s).or (integer? s))

end CodeReview.Toml

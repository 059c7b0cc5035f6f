import CodeReview.Toml.Literal

/-!
# Reading TOML documents

A document is a row of lines.  A line adds a value under a key, or a header says which table the
following lines belong to.  A document is well formed as a whole or not at all: no table has two
headers, no key is given twice, and a complete value is never added to.
-/

namespace CodeReview.Toml

/-! ## Keys -/

/-- A character of a key without quotes. -/
def isBare (c : Char) : Bool := c.isAlphanum || c == '-' || c == '_'

/-- One part of a key. -/
def part? (s : List Char) : Option (String × List Char) :=
  match s with
  | c :: _ =>
    if c == '"' || c == '\'' then shortString? s
    else
      let word := s.takeWhile isBare
      if word.isEmpty then none else some (String.ofList word, s.dropWhile isBare)
  | [] => none

/-- How many parts a key may have, and how many values may stand inside each other, are both below
this. -/
def depthLimit : Nat := 80

/-- Parts separated by points. -/
def parts? : Nat → List Char → Option (List String × List Char)
  | 0, _ => none
  | room + 1, s => do
    let (p, s) ← part? (skipSpace s)
    match skipSpace s with
    | '.' :: s =>
      let (ps, s) ← parts? room s
      some (p :: ps, s)
    | s => some ([p], s)

/-- A key. -/
def key? : Reading (List String) := parts? (depthLimit - 1)

/-! ## Values -/

/-- A comment up to the end of its line; gives the text from there on. -/
def skipComment? : List Char → Option (List Char)
  | '#' :: s =>
    let rest := s.dropWhile fun c => isVisible c
    if rest.isEmpty || (lineEnd? rest).isSome then some rest else none
  | s => some s

/-- Blank space, line ends and comments between the items of an array. -/
def skipLines? : Nat → List Char → Option (List Char)
  | 0, s => some s
  | fuel + 1, s => do
    let s ← skipComment? (skipSpace s)
    match lineEnd? s with
    | some s => skipLines? fuel s
    | none => some s

mutual

/-- A value with at most `room` values around it still to come. -/
def value? : Nat → Nat → List Char → Option (Value × List Char)
  | 0, _, _ => none
  | _ + 1, _, [] => none
  | fuel + 1, room, c :: rest =>
    if c == '"' || c == '\'' then (string? (c :: rest)).map fun p => (.text p.1, p.2)
    else if c == '[' then
      match room with
      | 0 => none
      | room + 1 => (items? fuel room rest).map fun p => (.array p.1, p.2)
    else if c == '\x7b' then
      match room with
      | 0 => none
      | room + 1 => do
        match skipSpace rest with
        | '\x7d' :: s => some (.table .braces [], s)
        | s =>
          let (ms, s) ← members? fuel room [] s
          some (.table .braces ms, s)
    else if c == 't' then
      match rest with
      | 'r' :: 'u' :: 'e' :: s => some (.bool true, s)
      | _ => none
    else if c == 'f' then
      match rest with
      | 'a' :: 'l' :: 's' :: 'e' :: s => some (.bool false, s)
      | _ => none
    else numeral? (c :: rest)

/-- The items of an array up to its end. -/
def items? : Nat → Nat → List Char → Option (List Value × List Char)
  | 0, _, _ => none
  | fuel + 1, room, s => do
    match ← skipLines? s.length s with
    | ']' :: s => some ([], s)
    | s =>
      let (v, s) ← value? fuel room s
      match ← skipLines? s.length s with
      | ',' :: s =>
        let (vs, s) ← items? fuel room s
        some (v :: vs, s)
      | ']' :: s => some ([v], s)
      | _ => none

/-- The members of a table in braces up to its end, added to those before. -/
def members? : Nat → Nat → Members → List Char → Option (Members × List Char)
  | 0, _, _, _ => none
  | fuel + 1, room, ms, s => do
    let (key, s) ← key? s
    let s ← mark? '=' s
    let (v, s) ← value? fuel room (skipSpace s)
    let ms ← Members.add? .dotted key.dropLast (key.getLastD "") v ms
    match skipSpace s with
    | ',' :: s => members? fuel room ms s
    | '\x7d' :: s => some (ms, s)
    | _ => none

end

/-! ## Documents -/

/-- Blank space and a comment before the end of a line, and the line end. -/
def lineTail? (s : List Char) : Option (List Char) := do
  match ← skipComment? (skipSpace s) with
  | [] => some []
  | s => lineEnd? s

/-- What a line does. -/
inductive Line where
  /-- It holds nothing, or only a comment. -/
  | blank
  /-- It adds a value. -/
  | entry (key : List String) (v : Value)
  /-- It is the header of a table. -/
  | header (key : List String)
  /-- It is a header that may be repeated. -/
  | repeated (key : List String)
  deriving Repr

/-- One line, or several where a value goes on. -/
def line? (s : List Char) : Option (Line × List Char) := do
  match skipSpace s with
  | '[' :: '[' :: s =>
    let (key, s) ← key? s
    let s ← lineTail? (← mark? ']' (← mark? ']' s))
    some (.repeated key, s)
  | '[' :: s =>
    let (key, s) ← key? s
    let s ← lineTail? (← mark? ']' s)
    some (.header key, s)
  | [] => some (.blank, [])
  | c :: s =>
    if c == '#' || c == '\n' || c == '\r' then
      let s ← lineTail? (c :: s)
      some (.blank, s)
    else
      let (key, s) ← key? (c :: s)
      let s ← mark? '=' s
      let (v, s) ← value? (s.length + 1) (depthLimit - 1) (skipSpace s)
      let s ← lineTail? s
      some (.entry key v, s)

/-- The lines of a document. -/
def lines? : Nat → List Char → Option (List Line)
  | 0, _ => none
  | _ + 1, [] => some []
  | fuel + 1, c :: s => do
    let (l, s) ← line? (c :: s)
    let ls ← lines? fuel s
    some (l :: ls)

/-- Open a table with a header of its own; it may have been part of longer headers before. -/
def openTable? (key : String) (ms : Members) : Option Members :=
  match ms.lookup key with
  | none => some (ms.put key (.table .header []))
  | some (.table .implied inner) => some (ms.put key (.table .header inner))
  | some _ => none

/-- Open one more table under a header that is repeated. -/
def openRepeated? (key : String) (ms : Members) : Option Members :=
  match ms.lookup key with
  | none => some (ms.put key (.tables [[]]))
  | some (.tables parts) => some (ms.put key (.tables ([] :: parts)))
  | some _ => none

/-- Add a value to the table that the last header opened. -/
def addValue? (header key : List String) (v : Value) (ms : Members) : Option Members :=
  Members.change? .implied (Members.add? .dotted key.dropLast (key.getLastD "") v) header ms

/-- The table and header that hold after a line. -/
def addLine? (state : Members × List String) : Line → Option (Members × List String)
  | .blank => some state
  | .entry key v => (addValue? state.2 key v state.1).map (·, state.2)
  | .header key =>
    (Members.change? .implied (openTable? (key.getLastD "")) key.dropLast state.1).map (·, key)
  | .repeated key =>
    (Members.change? .implied (openRepeated? (key.getLastD "")) key.dropLast state.1).map (·, key)

/-- The characters of a document.  A byte order mark in front does not count. -/
def charsOf (text : String) : List Char :=
  match text.toList with
  | '\ufeff' :: s => s
  | s => s

/-- Read a document. -/
def parse? (text : String) : Option Members := do
  let s := charsOf text
  let ls ← lines? (s.length + 1) s
  let state ← ls.foldlM addLine? ([], [])
  some state.1

/-! ## Where a document stops -/

/-- A key stands here, and no equals sign follows it. -/
def isLoneKey (s : List Char) : Bool :=
  match skipSpace s with
  | [] => false
  | c :: s =>
    c != '[' && c != '#' && c != '\n' && c != '\r' &&
      (key? (c :: s)).any fun p => (mark? '=' p.2).isNone

/-- The first line that cannot be read or does not fit stops at a key without an equals sign. -/
def linesStopAtKey : Nat → Members × List String → List Char → Bool
  | 0, _, _ => false
  | _ + 1, _, [] => false
  | fuel + 1, state, c :: s =>
    match line? (c :: s) with
    | none => isLoneKey (c :: s)
    | some (l, s) =>
      match addLine? state l with
      | none => false
      | some state => linesStopAtKey fuel state s

/-- A document cannot be read because of a key without an equals sign. -/
def stopsAtKey (text : String) : Bool :=
  let s := charsOf text
  linesStopAtKey (s.length + 1) ([], []) s

end CodeReview.Toml

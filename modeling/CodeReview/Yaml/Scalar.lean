import CodeReview.Text.Digit
import CodeReview.Yaml.Cursor

/-!
# Scalars as they are written

Reading plain, quoted and block scalars.  Each reader starts at the scalar and gives its text and
the place after it; it fails where the text is malformed.

Lines of plain and quoted scalars are folded: one line end counts as a space, further ones as
themselves, and spaces around line ends do not count.
-/

namespace CodeReview.Yaml

open CodeReview.Text

/-- How a scalar is written. -/
inductive Style where
  | plain
  | singleQuoted
  | doubleQuoted
  | literal
  | folded
  deriving Repr, DecidableEq

/-- Spaces and line ends between two runs of visible characters. -/
structure Gap where
  /-- The gap holds a line end. -/
  broken : Bool
  /-- Spaces of a gap without line end, last first. -/
  spaces : List Char
  /-- The first line end. -/
  first : List Char
  /-- All further line ends, last first. -/
  more : List Char
  deriving Repr

namespace Gap

/-- What a folded gap stands for. -/
def text (g : Gap) : List Char :=
  if !g.broken then g.spaces.reverse
  else if g.first == ['\n'] then (if g.more.isEmpty then [' '] else g.more.reverse)
  else g.first ++ g.more.reverse

/-- Read a gap.  In a block, a tab left of column `indent` after a line end is refused. -/
def read? (indent : Nat) : Nat → Gap → Cursor → Option (Gap × Cursor)
  | 0, g, c => some (g, c)
  | fuel + 1, g, c =>
    match c.rest with
    | [] => some (g, c)
    | ch :: _ =>
      if isSpace ch then
        if g.broken && c.column < indent && ch == '\t' then none
        else if g.broken then read? indent fuel g (c.advance 1)
        else read? indent fuel { g with spaces := ch :: g.spaces } (c.advance 1)
      else if isBreak ch then
        let (b, c) := c.takeBreak
        if g.broken then read? indent fuel { g with more := b.reverse ++ g.more } c
        else read? indent fuel ⟨true, [], b, []⟩ c
      else some (g, c)

/-- A gap that has not begun. -/
def unbegun : Gap := ⟨false, [], [], []⟩

/-- A gap that begins after an escaped line end. -/
def escapedBreak : Gap := ⟨true, [], [], []⟩

end Gap

/-! ## Plain scalars -/

/-- A character that ends a plain scalar in a flow collection. -/
def isFlowMark (c : Char) : Bool :=
  c == ',' || c == '[' || c == ']' || c == '\x7b' || c == '\x7d'

/-- The run of visible characters of a plain scalar at the front of a text, added to `done`, which
is held last first; also its length.  A colon directly before a mark of a flow collection is
refused inside one. -/
def plainRun? (flow : Bool) (done : List Char) (n : Nat) : List Char → Option (List Char × Nat)
  | [] => some (done, n)
  | c :: rest =>
    if isGap c then some (done, n)
    else if flow && c == ':' && (rest.head?.elim false fun d => isFlowMark d || d == '?') then none
    else if (c == ':' && atGap rest) || (flow && isFlowMark c) then some (done, n)
    else plainRun? flow (c :: done) (n + 1) rest

/-- The rest of a plain scalar: its text, last character first, the place after it, and whether
a line end was passed at its end. -/
def plainFrom? (flow : Bool) (indent : Nat) :
    Nat → List Char → Gap → Cursor → Option (List Char × Cursor × Bool)
  | 0, done, g, c => some (done, c, g.broken)
  | fuel + 1, done, g, c =>
    if c.atMarker || c.rest.head? == some '#' then some (done, c, g.broken)
    else
      match plainRun? flow [] 0 c.rest with
      | none => none
      | some ([], _) => some (done, c, g.broken)
      | some (run, n) =>
        let done := run ++ (g.text.reverse ++ done)
        let c := c.advance n
        match c.rest with
        | [] => some (done, c, false)
        | d :: _ =>
          if isGap d then
            match Gap.read? indent (c.rest.length + 1) .unbegun c with
            | none => none
            | some (g, c) =>
              if !flow && c.column < indent then some (done, c, g.broken)
              else plainFrom? flow indent fuel done g c
          else some (done, c, false)

/-- Read a plain scalar: its text, the place after it, and whether a line end was passed. -/
def plain? (flow : Bool) (indent : Nat) (c : Cursor) : Option (String × Cursor × Bool) :=
  (plainFrom? flow indent (c.rest.length + 1) [] .unbegun c).map fun (done, c, broken) =>
    (String.ofList done.reverse, c, broken)

/-! ## Quoted scalars -/

/-- The character that a one-letter escape stands for. -/
def escaped? (c : Char) : Option Char :=
  match c with
  | '0' => some '\x00'
  | 'a' => some '\x07'
  | 'b' => some '\x08'
  | 't' => some '\t'
  | '\t' => some '\t'
  | 'n' => some '\n'
  | 'v' => some '\x0b'
  | 'f' => some '\x0c'
  | 'r' => some '\r'
  | 'e' => some '\x1b'
  | ' ' => some ' '
  | '"' => some '"'
  | '/' => some '/'
  | '\\' => some '\\'
  | 'N' => some '\u0085'
  | '_' => some '\u00a0'
  | 'L' => some '\u2028'
  | 'P' => some '\u2029'
  | _ => none

/-- How many hexadecimal digits follow an escape letter. -/
def escapeWidth? (c : Char) : Option Nat :=
  if c == 'x' then some 2 else if c == 'u' then some 4 else if c == 'U' then some 8 else none

/-- The character after a backslash, and how many characters the escape has without it. -/
def escape? : List Char → Option (Char × Nat)
  | [] => none
  | c :: rest =>
    match escapeWidth? c with
    | some w =>
      if rest.length < w then none
      else
        (inBase? 16 (rest.take w)).bind fun n =>
          (charOf? n).map fun d => (d, w + 1)
    | none => (escaped? c).map fun d => (d, 1)

/-- Where a run of visible characters of a quoted scalar ends. -/
inductive RunEnd where
  | quote
  | gap
  /-- A backslash before a line end. -/
  | escapedBreak
  deriving Repr, DecidableEq

/-- The run of visible characters of a quoted scalar at the front of a text, added to `done`, which
is held last first; `skip` characters were consumed already.  Also the length of the run. -/
def quotedRun? (single : Bool) :
    Nat → List Char → Nat → List Char → Option (List Char × Nat × RunEnd)
  | skip + 1, done, n, _ :: rest => quotedRun? single skip done (n + 1) rest
  | _, done, n, [] => some (done, n, .gap)
  | 0, done, n, c :: rest =>
    if isGap c then some (done, n, .gap)
    else if single then
      if c == '\'' then
        if rest.head? == some '\'' then quotedRun? single 1 ('\'' :: done) (n + 1) rest
        else some (done, n, .quote)
      else quotedRun? single 0 (c :: done) (n + 1) rest
    else if c == '"' then some (done, n, .quote)
    else if c == '\\' then
      if rest.head?.elim false isBreak then some (done, n, .escapedBreak)
      else
        match escape? rest with
        | none => none
        | some (d, w) => quotedRun? single w (d :: done) (n + 1) rest
    else quotedRun? single 0 (c :: done) (n + 1) rest

/-- The rest of a quoted scalar after its opening quote: its text, last character first, and the
place after its closing quote. -/
def quotedFrom? (single : Bool) : Nat → List Char → Cursor → Option (List Char × Cursor)
  | 0, _, _ => none
  | fuel + 1, done, c =>
    if c.atMarker then none
    else if c.rest.isEmpty then none
    else
      match quotedRun? single 0 done 0 c.rest with
      | none => none
      | some (done, n, .quote) => some (done, (c.advance n).advance 1)
      | some (done, n, stop) =>
        let c := c.advance n
        let (g, c) := match stop with
          | .escapedBreak => (Gap.escapedBreak, (c.advance 1).skipBreak)
          | _ => (Gap.unbegun, c)
        if c.rest.head? == some (if single then '\'' else '"') then
          some (done, c.advance 1)
        else
          match g.read? 0 (c.rest.length + 1) c with
          | none => none
          | some (g, c) => quotedFrom? single fuel (g.text.reverse ++ done) c

/-- Read a quoted scalar. -/
def quoted? (single : Bool) (c : Cursor) : Option (String × Cursor) :=
  (quotedFrom? single (c.rest.length + 1) [] (c.advance 1)).map fun (done, c) =>
    (String.ofList done.reverse, c)

/-! ## Block scalars -/

/-- What happens to line ends after the last line. -/
inductive Chomping where
  | strip
  | clip
  | keep
  deriving Repr, DecidableEq

/-- Indicators after the sign of a block scalar, in either order, and how many there are. -/
def blockHeader? : List Char → Option (Chomping × Nat × Nat)
  | a :: b :: _ =>
    match chomping? a, indentDigit? a with
    | some ch, _ =>
      if b.isDigit then (indentDigit? b).map fun d => (ch, d, 2) else some (ch, 0, 1)
    | none, some d =>
      match chomping? b with
      | some ch => some (ch, d, 2)
      | none => some (.clip, d, 1)
    | none, none => if a == '0' then none else some (.clip, 0, 0)
  | [a] =>
    match chomping? a, indentDigit? a with
    | some ch, _ => some (ch, 0, 1)
    | none, some d => some (.clip, d, 1)
    | none, none => if a == '0' then none else some (.clip, 0, 0)
  | [] => some (.clip, 0, 0)
where
  /-- A chomping indicator. -/
  chomping? (c : Char) : Option Chomping :=
    if c == '-' then some .strip else if c == '+' then some .keep else none
  /-- An indentation indicator. -/
  indentDigit? (c : Char) : Option Nat :=
    if c.isDigit && c != '0' then some (c.toNat - 48) else none

/-- Skip the indentation of a line, at most to column `indent` where that is known (positive). -/
def skipIndent (indent : Nat) (c : Cursor) : Cursor :=
  let spaces := (c.rest.takeWhile (· == ' ')).length
  c.advance (if indent == 0 then spaces else min spaces (indent - c.column))

/-- Read empty lines and the indentation of the line after them.  Gives the line ends, last first,
the deepest column reached, and the place. -/
def blockBreaks? (indent : Nat) : Nat → Nat → List Char → Cursor → Option (List Char × Nat × Cursor)
  | 0, deepest, done, c => some (done, deepest, c)
  | fuel + 1, deepest, done, c =>
    let c := skipIndent indent c
    let deepest := max deepest c.column
    match c.rest with
    | [] => some (done, deepest, c)
    | ch :: _ =>
      if (indent == 0 || c.column < indent) && ch == '\t' then none
      else if isBreak ch then
        let (b, c) := c.takeBreak
        blockBreaks? indent fuel deepest (b.reverse ++ done) c
      else some (done, deepest, c)

/-- Read empty lines; where the indentation is not known yet, it is found from the first line that
is not empty, and is at least `least`. -/
def leadIn? (indent least : Nat) (c : Cursor) : Option (List Char × Nat × Cursor) :=
  (blockBreaks? indent (c.rest.length + 1) 0 [] c).map fun (breaks, deepest, c) =>
    (breaks, if indent == 0 then max deepest (max least 1) else indent, c)

/-- The lines of a block scalar.  `done` is the text so far, last character first; `first` and
`more` are the line end after the last line and those of the empty lines after it, last first. -/
def blockLines? (literal : Bool) (chomping : Chomping) (indent : Nat) :
    Nat → List Char → List Char → List Char → Bool → Cursor → Option (List Char × Cursor)
  | 0, done, _, _, _, c => some (done, c)
  | fuel + 1, done, first, more, wasBlank, c =>
    if c.column == indent && !c.rest.isEmpty then
      let blank := c.rest.head?.elim false isSpace
      let joined :=
        if !literal && first == ['\n'] && !wasBlank && !blank then
          more ++ (if more.isEmpty then [' '] else []) ++ done
        else more ++ (first.reverse ++ done)
      let line := c.rest.takeWhile (!isBreak ·)
      let (b, c) := (c.advance line.length).takeBreak
      match leadIn? indent 1 c with
      | none => none
      | some (breaks, _, c) =>
        blockLines? literal chomping indent fuel (line.reverse ++ joined) b breaks blank c
    else
      let done := if chomping = .strip then done else first.reverse ++ done
      some (if chomping = .keep then more ++ done else done, c)

/-- Read a block scalar in a block that is indented to column `outer` (minus one outside all). -/
def block? (literal : Bool) (outer : Int) (c : Cursor) : Option (String × Cursor) :=
  let c := c.advance 1
  match blockHeader? c.rest with
  | none => none
  | some (chomping, increment, n) =>
    let c := (c.advance n).skipWhile isSpace
    let c := if c.rest.head? == some '#' then c.skipToLineEnd else c
    if !atLineEnd c.rest then none
    else
      let c := c.skipBreak
      let indent := if increment == 0 then 0 else (max outer 0).toNat + increment
      match leadIn? indent (outer + 1).toNat c with
      | none => none
      | some (breaks, indent, c) =>
        (blockLines? literal chomping indent (c.rest.length + 1) [] [] breaks false c).map
          fun (done, c) => (String.ofList done.reverse, c)

end CodeReview.Yaml

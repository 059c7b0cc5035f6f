import CodeReview.Yaml.Scalar

/-!
# YAML tokens

A document is cut into tokens from left to right.  In blocks, indentation is turned into tokens of
its own: a token opens a collection where a line is indented deeper than the block around it, and
another closes it where a later line is not.

A key may be written without an indicator; that it was a key shows only at the colon after it.
The lexer therefore remembers, for the document and for each open flow collection, where such a
key may have started, and puts the missing tokens there afterwards.  A key of this kind ends on the
line on which it starts and has at most 1024 characters.
-/

namespace CodeReview.Yaml

open CodeReview.Text

/-- A piece of a document. -/
inductive Token where
  | version (major minor : Nat)
  | tagDirective (handle expansion : String)
  | documentStart
  | documentEnd
  | blockSequence
  | blockMapping
  | blockEnd
  | flowSequence
  | flowSequenceEnd
  | flowMapping
  | flowMappingEnd
  | entry
  | flowEntry
  | key
  | value
  | alias (name : String)
  | anchor (name : String)
  | tag (handle suffix : String)
  | scalar (style : Style) (text : String)
  deriving Repr, DecidableEq

/-- Where a key without indicator may have started. -/
structure PossibleKey where
  /-- Number of tokens before it. -/
  position : Nat
  /-- Nothing but a key can stand there. -/
  required : Bool
  index : Nat
  line : Nat
  column : Nat
  deriving Repr, DecidableEq

/-- What a lexer knows. -/
structure Lexer where
  cursor : Cursor
  /-- Tokens so far, last first. -/
  tokens : List Token
  count : Nat
  /-- Column of the block under way, or minus one. -/
  indent : Int
  /-- Columns of the blocks around it. -/
  outer : List Int
  /-- Whether a key without indicator may start here. -/
  keyAllowed : Bool
  /-- The possible key of the innermost open collection. -/
  possible : Option PossibleKey
  /-- Those of the collections around it; one for each open flow collection. -/
  around : List (Option PossibleKey)
  deriving Repr

namespace Lexer

/-- The start of a text. -/
def start (s : List Char) : Lexer :=
  ⟨.start s, [], 0, -1, [], true, none, []⟩

/-- Inside a flow collection. -/
def inFlow (l : Lexer) : Bool := !l.around.isEmpty

/-- Add a token at the end. -/
def emit (l : Lexer) (t : Token) : Lexer :=
  { l with tokens := t :: l.tokens, count := l.count + 1 }

/-- Add a token after the first `position` tokens. -/
def emitAt (l : Lexer) (position : Nat) (t : Token) : Lexer :=
  let later := l.tokens.take (l.count - position)
  { l with tokens := later ++ t :: l.tokens.drop (l.count - position), count := l.count + 1 }

/-- A possible key that can still turn out to be one. -/
def isLive (l : Lexer) (k : PossibleKey) : Bool :=
  l.cursor.line ≤ k.line && l.cursor.index ≤ k.index + 1024

/-- Forget a possible key that cannot be one any more; fails where it had to be one. -/
def refresh? (l : Lexer) : Option PossibleKey → Option (Option PossibleKey)
  | none => some none
  | some k => if l.isLive k then some (some k) else if k.required then none else some none

/-- Forget all possible keys that cannot be keys any more. -/
def dropStale? (l : Lexer) : Option Lexer := do
  let possible ← l.refresh? l.possible
  let around ← l.around.mapM l.refresh?
  some { l with possible, around }

/-- Forget the possible key of the innermost collection; fails where it had to be a key. -/
def dropKey? (l : Lexer) : Option Lexer :=
  if l.possible.elim false (·.required) then none else some { l with possible := none }

/-- Remember that a key may start here. -/
def saveKey? (l : Lexer) : Option Lexer :=
  if l.keyAllowed then
    let c := l.cursor
    let required := !l.inFlow && l.indent == c.column
    l.dropKey?.map fun l =>
      { l with possible := some ⟨l.count, required, c.index, c.line, c.column⟩ }
  else some l

/-- Open a block collection at a column that is deeper than the block under way; its token goes
after the first `position` tokens. -/
def openBlock (l : Lexer) (column position : Nat) (t : Token) : Lexer :=
  if !l.inFlow && l.indent < column then
    { l with outer := l.indent :: l.outer, indent := column }.emitAt position t
  else l

/-- Close the blocks that are deeper than a column. -/
def closeBlocksFrom (column : Int) (l : Lexer) : List Int → Lexer
  | [] => { l with outer := [] }
  | o :: outer =>
    if column < l.indent then closeBlocksFrom column ({ l with indent := o }.emit .blockEnd) outer
    else { l with outer := o :: outer }

/-- Close the blocks that are deeper than a column, outside flow collections. -/
def closeBlocks (l : Lexer) (column : Int) : Lexer :=
  if l.inFlow then l else closeBlocksFrom column l l.outer

/-- Skip blanks, comments and line ends before the next token. -/
def skipBlanks : Nat → Lexer → Lexer
  | 0, l => l
  | fuel + 1, l =>
    let c := l.cursor
    let c := if c.column == 0 && c.rest.head? == some '\ufeff' then c.advance 1 else c
    let c := c.skipWhile fun ch => ch == ' ' || ((l.inFlow || !l.keyAllowed) && ch == '\t')
    let c := if c.rest.head? == some '#' then c.skipToLineEnd else c
    if c.rest.head?.elim false isBreak then
      skipBlanks fuel { l with cursor := c.skipBreak, keyAllowed := l.keyAllowed || !l.inFlow }
    else { l with cursor := c }

/-! ## Tokens that are more than an indicator -/

/-- A number of a version directive: at most nine digits. -/
def versionNumber? (c : Cursor) : Option (Nat × Cursor) :=
  let ds := c.rest.takeWhile Char.isDigit
  if ds.isEmpty || 9 < ds.length then none
  else some (ds.foldl (fun n d => n * 10 + (d.toNat - 48)) 0, c.advance ds.length)

/-- The handle of a tag: an exclamation mark, then possibly a name and another one. -/
def tagHandle? (directive : Bool) (c : Cursor) : Option (List Char × Cursor) :=
  match c.rest with
  | '!' :: rest =>
    let name := rest.takeWhile isWordChar
    let closed := (rest.drop name.length).head? == some '!'
    if directive && !closed && !name.isEmpty then none
    else some ('!' :: name ++ (if closed then ['!'] else []),
      c.advance (name.length + (if closed then 2 else 1)))
  | _ => none

/-- Characters of a tag; flow indicators only where the tag stands between angle brackets. -/
def inTag (verbatim : Bool) (c : Char) : Bool :=
  isWordChar c || ";/?:@&=+$.!~*'()".toList.contains c || (verbatim && ",[]".toList.contains c)

/-- The bytes of percent-escaped and plain characters of a tag, last first, and how many characters
they take. -/
def tagBytes? (verbatim : Bool) : Nat → List UInt8 → Nat → List Char → Option (List UInt8 × Nat)
  | skip + 1, done, n, _ :: rest => tagBytes? verbatim skip done (n + 1) rest
  | _, done, n, [] => some (done, n)
  | 0, done, n, c :: rest =>
    if c == '%' then
      match rest with
      | a :: b :: _ =>
        match hexValue? a, hexValue? b with
        | some x, some y => tagBytes? verbatim 2 (UInt8.ofNat (16 * x + y) :: done) (n + 1) rest
        | _, _ => none
      | _ => none
    else if inTag verbatim c then tagBytes? verbatim 0 (UInt8.ofNat c.toNat :: done) (n + 1) rest
    else some (done, n)

/-- The text of a tag after its handle, with `head` characters known before; it is not empty. -/
def tagText? (verbatim : Bool) (head : List Char) (c : Cursor) : Option (String × Cursor) :=
  match tagBytes? verbatim 0 [] 0 c.rest with
  | none => none
  | some (bytes, n) =>
    if head.isEmpty && n == 0 then none
    else
      (String.fromUTF8? ⟨bytes.reverse.toArray⟩).map fun s =>
        (String.ofList (head.drop 1) ++ s, c.advance n)

/-- Read a tag. -/
def tag? (flow : Bool) (c : Cursor) : Option (Token × Cursor) := do
  let (t, c) ← match c.rest with
    | '!' :: '<' :: _ => do
      let (s, c) ← tagText? true [] (c.advance 2)
      if c.rest.head? == some '>' then some (Token.tag "" s, c.advance 1) else none
    | _ => do
      let (handle, c) ← tagHandle? false c
      if 1 < handle.length && handle.getLast? == some '!' then
        let (s, c) ← tagText? false [] c
        some (Token.tag (String.ofList handle) s, c)
      else
        let (s, c) ← tagText? false handle c
        some (if s == "" then Token.tag "" "!" else Token.tag "!" s, c)
  if atGap c.rest || (flow && c.rest.head? == some ',') then some (t, c) else none

/-- Read the name of an anchor or alias after its indicator. -/
def name? (c : Cursor) : Option (String × Cursor) :=
  let c := c.advance 1
  let name := c.rest.takeWhile isWordChar
  let c := c.advance name.length
  if name.isEmpty then none
  else if atGap c.rest || c.rest.head?.elim false ("?:,]\x7d%@\x60".toList.contains ·) then
    some (String.ofList name, c)
  else none

/-- Read a directive. -/
def directive? (c : Cursor) : Option (Token × Cursor) := do
  let c := c.advance 1
  let name := c.rest.takeWhile isWordChar
  let c := c.advance name.length
  if name.isEmpty || !atGap c.rest then none
  let c := c.skipWhile isSpace
  let (t, c) ←
    if name == "YAML".toList then do
      let (major, c) ← versionNumber? c
      if c.rest.head? ≠ some '.' then none
      let (minor, c) ← versionNumber? (c.advance 1)
      some (Token.version major minor, c)
    else if name == "TAG".toList then do
      let (handle, c) ← tagHandle? true c
      if !c.rest.head?.elim false isSpace then none
      let (s, c) ← tagText? true [] (c.skipWhile isSpace)
      if !atGap c.rest then none
      some (Token.tagDirective (String.ofList handle) s, c)
    else none
  let c := c.skipWhile isSpace
  let c := if c.rest.head? == some '#' then c.skipToLineEnd else c
  if atLineEnd c.rest then some (t, c.skipBreak) else none

/-! ## The next token -/

/-- Add a token and go on by the characters of its indicator. -/
def take (l : Lexer) (t : Token) (n : Nat) : Lexer :=
  { l.emit t with cursor := l.cursor.advance n }

/-- A marker of a document's start or end. -/
def marker? (l : Lexer) (t : Token) : Option Lexer :=
  (l.closeBlocks (-1)).dropKey?.map fun l => { l with keyAllowed := false }.take t 3

/-- The start of a flow collection. -/
def openFlow? (l : Lexer) (t : Token) : Option Lexer :=
  l.saveKey?.map fun l =>
    { l with around := l.possible :: l.around, possible := none, keyAllowed := true }.take t 1

/-- The end of a flow collection. -/
def closeFlow? (l : Lexer) (t : Token) : Option Lexer :=
  l.dropKey?.map fun l =>
    let l := match l.around with
      | [] => l
      | k :: around => { l with possible := k, around }
    { l with keyAllowed := false }.take t 1

/-- The indicator of a block entry. -/
def blockEntry? (l : Lexer) : Option Lexer :=
  if !l.inFlow && !l.keyAllowed then none
  else
    let l := l.openBlock l.cursor.column l.count .blockSequence
    l.dropKey?.map fun l => { l with keyAllowed := true }.take .entry 1

/-- The indicator of a key. -/
def keyIndicator? (l : Lexer) : Option Lexer :=
  if !l.inFlow && !l.keyAllowed then none
  else
    let l := l.openBlock l.cursor.column l.count .blockMapping
    l.dropKey?.map fun l => { l with keyAllowed := !l.inFlow }.take .key 1

/-- The indicator of a value. -/
def valueIndicator? (l : Lexer) : Option Lexer :=
  match l.possible with
  | some k =>
    let l := l.emitAt k.position .key
    let l := l.openBlock k.column k.position .blockMapping
    some ({ l with possible := none, keyAllowed := false }.take .value 1)
  | none =>
    if !l.inFlow && !l.keyAllowed then none
    else
      let l := l.openBlock l.cursor.column l.count .blockMapping
      some ({ l with keyAllowed := !l.inFlow }.take .value 1)

/-- A token that may start a key. -/
def content? (l : Lexer) (read : Lexer → Option (Token × Cursor)) : Option Lexer :=
  l.saveKey?.bind fun l =>
    (read l).map fun (t, c) => { l.emit t with cursor := c, keyAllowed := false }

/-- A plain scalar.  After a line end that it passed, a key may start again. -/
def plainScalar? (l : Lexer) : Option Lexer :=
  l.saveKey?.bind fun l =>
    (plain? l.inFlow (l.indent + 1).toNat l.cursor).map fun (s, c, broken) =>
      { l.emit (.scalar .plain s) with cursor := c, keyAllowed := broken }

/-- A block scalar. -/
def blockScalar? (l : Lexer) (literal : Bool) : Option Lexer :=
  l.dropKey?.bind fun l =>
    (block? literal l.indent l.cursor).map fun (s, c) =>
      { l.emit (.scalar (if literal then .literal else .folded) s) with
        cursor := c, keyAllowed := true }

/-- Characters that have a meaning of their own where a plain scalar could start. -/
def isIndicator (c : Char) : Bool :=
  "-?:,[]\x7b\x7d#&*!|>'\"%@\x60".toList.contains c

/-- Read the next token, which starts with the character `c` followed by `rest`. -/
def token? (l : Lexer) (c : Char) (rest : List Char) : Option Lexer :=
  let flow := l.inFlow
  if l.cursor.column == 0 && c == '%' then
    (l.closeBlocks (-1)).dropKey?.bind fun l =>
      (directive? l.cursor).map fun (t, c) => { l.emit t with cursor := c, keyAllowed := false }
  else if l.cursor.column == 0 && startsMarker '-' (c :: rest) then l.marker? .documentStart
  else if l.cursor.column == 0 && startsMarker '.' (c :: rest) then l.marker? .documentEnd
  else if c == '[' then l.openFlow? .flowSequence
  else if c == '\x7b' then l.openFlow? .flowMapping
  else if c == ']' then l.closeFlow? .flowSequenceEnd
  else if c == '\x7d' then l.closeFlow? .flowMappingEnd
  else if c == ',' then l.dropKey?.map fun l => { l with keyAllowed := true }.take .flowEntry 1
  else if c == '-' && atGap rest then l.blockEntry?
  else if c == '?' && (flow || atGap rest) then l.keyIndicator?
  else if c == ':' && (flow || atGap rest) then l.valueIndicator?
  else if c == '*' then l.content? fun l => (name? l.cursor).map fun (n, c) => (.alias n, c)
  else if c == '&' then l.content? fun l => (name? l.cursor).map fun (n, c) => (.anchor n, c)
  else if c == '!' then l.content? fun l => tag? l.inFlow l.cursor
  else if c == '|' && !flow then l.blockScalar? true
  else if c == '>' && !flow then l.blockScalar? false
  else if c == '\'' then
    l.content? fun l => (quoted? true l.cursor).map fun (s, c) => (.scalar .singleQuoted s, c)
  else if c == '"' then
    l.content? fun l => (quoted? false l.cursor).map fun (s, c) => (.scalar .doubleQuoted s, c)
  else if !isIndicator c && !isGap c then l.plainScalar?
  else if c == '-' && !(rest.head?.elim false isSpace) then l.plainScalar?
  else if !flow && (c == '?' || c == ':') && !atGap rest then l.plainScalar?
  else none

/-- Read all tokens. -/
def run? : Nat → Lexer → Option (List Token)
  | 0, _ => none
  | fuel + 1, l =>
    match (l.skipBlanks (l.cursor.rest.length + 1)).dropStale? with
    | none => none
    | some l =>
      let l := l.closeBlocks l.cursor.column
      match l.cursor.rest with
      | [] => ((l.closeBlocks (-1)).dropKey?).map fun l => l.tokens.reverse
      | c :: rest =>
        match l.token? c rest with
        | none => none
        | some l => run? fuel l

end Lexer

/-- The tokens of a text. -/
def tokens? (s : List Char) : Option (List Token) :=
  if s.all isAllowed then Lexer.run? (s.length + 2) (.start s) else none

end CodeReview.Yaml

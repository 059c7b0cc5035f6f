import CodeReview.Text.Blank

/-!
# The words of a typed line

A line is a sequence of words separated by blank characters.  A word is made of pieces that
follow each other directly:

* a character that is neither blank nor a quote nor a backslash stands for itself;
* a backslash makes the next character stand for itself, and stands for nothing at the end of
  the line;
* between single quotes every character stands for itself;
* between double quotes a backslash does so too, unless a double quote or a backslash follows:
  then the two stand for the second.

Quotes may enclose nothing, which is how an empty word is written.  A line whose last quote is
left open has no words.

`Scan` says where a reader stands, `Scan.words?` reads on from there in one pass.
-/

namespace CodeReview.CommandLine

open CodeReview.Text

/-- Where a reader of words stands; characters of the word under way are held last first. -/
inductive Scan where
  /-- Between two words. -/
  | between
  /-- In a word, outside quotes. -/
  | bare (word : List Char)
  /-- In a word, after an opening single quote. -/
  | single (word : List Char)
  /-- In a word, after an opening double quote. -/
  | double (word : List Char)
  deriving Repr, DecidableEq

namespace Scan

/-- The characters read so far of the word under way, last first. -/
def word : Scan → List Char
  | between => []
  | bare w => w
  | single w => w
  | double w => w

/-- Read the rest of a line.  `done` holds the words already complete, last first; the answer
is absent when a quote stays open. -/
def words? : Scan → List (List Char) → List Char → Option (List (List Char))
  | between, done, [] => some done.reverse
  | bare w, done, [] => some (w.reverse :: done).reverse
  | single _, _, [] => none
  | double _, _, [] => none
  | single w, done, c :: rest =>
    if c = '\'' then words? (bare w) done rest else words? (single (c :: w)) done rest
  | double w, done, '\\' :: '"' :: rest => words? (double ('"' :: w)) done rest
  | double w, done, '\\' :: '\\' :: rest => words? (double ('\\' :: w)) done rest
  | double w, done, c :: rest =>
    if c = '"' then words? (bare w) done rest else words? (double (c :: w)) done rest
  | between, done, ['\\'] => words? (bare []) done []
  | between, done, '\\' :: c :: rest => words? (bare [c]) done rest
  | between, done, c :: rest =>
    if isBlank c then words? between done rest
    else if c = '\'' then words? (single []) done rest
    else if c = '"' then words? (double []) done rest
    else words? (bare [c]) done rest
  | bare w, done, ['\\'] => words? (bare w) done []
  | bare w, done, '\\' :: c :: rest => words? (bare (c :: w)) done rest
  | bare w, done, c :: rest =>
    if isBlank c then words? between (w.reverse :: done) rest
    else if c = '\'' then words? (single w) done rest
    else if c = '"' then words? (double w) done rest
    else words? (bare (c :: w)) done rest

end Scan

/-- The words of a line, or nothing when a quote is left open. -/
def words? (line : String) : Option (List String) :=
  (Scan.words? .between [] line.toList).map (·.map String.ofList)

end CodeReview.CommandLine

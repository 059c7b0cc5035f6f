/-!
# Replacing one text by another

`replaceAll` reads its subject from left to right.  Where the pattern stands, the replacement
is written and the pattern skipped as a whole; elsewhere a character is copied.  What was
written is never read again, so a replacement that contains the pattern is left alone.
-/

namespace CodeReview.Text

/-- Copy `s`, skipping the next `skip` characters and writing `new` for each `old`. -/
def replaceFrom (old new : List Char) : Nat → List Char → List Char
  | _, [] => []
  | skip + 1, _ :: rest => replaceFrom old new skip rest
  | 0, c :: rest =>
    if old.isPrefixOf (c :: rest) then new ++ replaceFrom old new (old.length - 1) rest
    else c :: replaceFrom old new 0 rest

/-- `s` with every occurrence of the non-empty text `old` replaced by `new`. -/
def replaceAll (old new s : List Char) : List Char :=
  replaceFrom old new 0 s

/-- Whether `part` stands somewhere in the text. -/
def containsChars (part : List Char) : List Char → Bool
  | [] => part.isEmpty
  | c :: rest => part.isPrefixOf (c :: rest) || containsChars part rest

/-- `s` with every occurrence of the non-empty text `old` replaced by `new`. -/
def replace (s old new : String) : String :=
  String.ofList (replaceAll old.toList new.toList s.toList)

/-- Whether `part` stands somewhere in `s`. -/
def contains (s part : String) : Bool :=
  containsChars part.toList s.toList

end CodeReview.Text

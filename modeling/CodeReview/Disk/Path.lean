import CodeReview.Text.Split

/-!
# Paths

A path is a text; slashes separate its parts.  Empty parts and single dots do not count, a double
dot is kept.  The last part, unless it is a double dot, is the file name; it has a stem and,
where a dot stands inside it, an extension.
-/

namespace CodeReview.Path

open CodeReview.Text

/-- The parts that count. -/
def parts (path : String) : List String :=
  ((splitOn (· == '/') path.toList).filter fun p => !(p == [] || p == ['.'])).map String.ofList

/-- The path starts at the root. -/
def isAbsolute (path : String) : Bool :=
  path.toList.head? == some '/'

/-- The first part is a single dot. -/
def startsInDot (path : String) : Bool :=
  (splitOn (· == '/') path.toList).head? == some ['.']

/-- The paths are one path but for empty parts and for single dots behind the start. -/
def isSame (a b : String) : Bool :=
  isAbsolute a == isAbsolute b && startsInDot a == startsInDot b && parts a == parts b

/-- The path can only name a directory: it ends in a slash or a part of dots. -/
def namesDirectory (path : String) : Bool :=
  let last := lastPart (· == '/') path.toList
  last == [] || last == ['.'] || last == ['.', '.']

/-- The path ends in a single dot, so that what stands before it has to be a directory. -/
def endsInDot (path : String) : Bool :=
  lastPart (· == '/') path.toList == ['.']

/-- The last part, unless it is a double dot. -/
def fileName? (path : String) : Option String :=
  (parts path).getLast?.filter (· ≠ "..")

/-- Split a file name at its last dot, if that is not its first character. -/
def splitName (name : String) : List Char × Option (List Char) :=
  let s := name.toList
  let after := lastPart (· == '.') s
  if after.length + 1 < s.length then (s.take (s.length - after.length - 1), some after)
  else (s, none)

/-- The file name without its extension. -/
def stem? (path : String) : Option String :=
  (fileName? path).map fun name => String.ofList (splitName name).1

/-- What follows the last dot of the file name. -/
def extension? (path : String) : Option String :=
  (fileName? path).bind fun name => (splitName name).2.map String.ofList

/-- A path below a directory. -/
def join (directory name : String) : String :=
  if isAbsolute name then name
  else if directory == "" || directory.toList.getLast? == some '/' then directory ++ name
  else directory ++ "/" ++ name

end CodeReview.Path

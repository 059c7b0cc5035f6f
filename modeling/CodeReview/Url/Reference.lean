import CodeReview.Url.Reader

/-!
# References

Reading a reference that a web server gives: an address of its own, or one that lacks parts, which
are then those of the address that was asked.
-/

namespace CodeReview.Url

/-- Scheme and authority as they are written. -/
def origin (u : Url) : String := u.scheme ++ ":" ++ u.authority

/-- The path up to its last slash. -/
def directory (u : Url) : String :=
  match u.path with
  | .opaqueText t => t
  | .segments parts => Path.text (.segments (parts.dropLast ++ [""]))

/-- The query with its question mark. -/
def queryPart (u : Url) : String := u.query.elim "" ("?" ++ ·)

/-- Read a reference that has no scheme of its own. -/
def relative? (base : Url) (s : List Char) : Option Url :=
  let text := String.ofList s
  match s with
  | [] => some { base with fragment := none }
  | '#' :: _ => parse? (base.origin ++ base.path.text ++ base.queryPart ++ text)
  | '?' :: _ => parse? (base.origin ++ base.path.text ++ text)
  | c :: rest =>
    if !isSlash true c then parse? (base.origin ++ base.directory ++ text)
    else if rest.head?.any (isSlash true) then parse? (base.scheme ++ ":" ++ text)
    else parse? (base.origin ++ text)

/-- Read a reference against the web address that it was found at. -/
def resolve? (base : Url) (input : String) : Option Url :=
  let s := clean input.toList
  match splitScheme? s with
  | some (scheme, rest) => if scheme == base.scheme then relative? base rest else parse? input
  | none => relative? base s

end CodeReview.Url

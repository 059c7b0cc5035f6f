import CodeReview.Url.Basic
import CodeReview.Url.Domain

/-!
# Reading a URL

`Url.parse?` reads an absolute URL: a scheme, and what the scheme allows after it.  Blanks and
controls at the ends are dropped, tabs and line breaks are dropped everywhere.

The parts are cut off from left to right: the authority ends at the first slash, question mark or
number sign (in a special scheme also at a backslash), the path at the first question mark or number
sign, the query at the first number sign.  What is left is the fragment.
-/

namespace CodeReview.Url

open CodeReview.Text

/-- Whether a character separates the segments of a path. -/
def isSlash (special : Bool) (c : Char) : Bool :=
  c == '/' || (special && c == '\\')

/-- Whether a character ends the authority. -/
def endsAuthority (special : Bool) (c : Char) : Bool :=
  isSlash special c || c == '?' || c == '#'

/-- The input without blanks and controls at its ends, and without tabs and line breaks. -/
def clean (s : List Char) : List Char :=
  let low (c : Char) : Bool := c.toNat ≤ 0x20
  let inner := ((s.dropWhile low).reverse.dropWhile low).reverse
  inner.filter fun c => !(c == '\t' || c == '\n' || c == '\r')

/-- The lower-cased scheme and what follows its colon. -/
def splitScheme? (s : List Char) : Option (String × List Char) :=
  let inScheme (c : Char) : Bool := c.isAlphanum || c == '+' || c == '-' || c == '.'
  match s with
  | [] => none
  | c :: _ =>
    match s.dropWhile inScheme with
    | ':' :: rest =>
      if c.isAlpha then some (String.ofList ((s.takeWhile inScheme).map Char.toLower), rest)
      else none
    | _ => none

/-! ## Authority -/

/-- The characters before the last `@`, if there is one, and those after it. -/
def splitUser (s : List Char) : Option (List Char) × List Char :=
  let tail := (s.reverse.takeWhile (· ≠ '@')).reverse
  if tail.length == s.length then (none, s) else (some (s.take (s.length - tail.length - 1)), tail)

/-- Cut a host off: it ends at a colon outside brackets. -/
def splitHost (inside : Bool) : List Char → List Char × List Char
  | [] => ([], [])
  | c :: rest =>
    if c == ':' && !inside then ([], c :: rest)
    else
      let inside := if c == '[' then true else if c == ']' then false else inside
      let (h, r) := splitHost inside rest
      (c :: h, r)

/-- A host in brackets. -/
def bracketed? (s : List Char) : Option Host :=
  match s.reverse with
  | ']' :: inner => (readV6? (inner.reverse.drop 1)).map .v6
  | _ => none

/-- The host of a special scheme; it is not empty. -/
def specialHost? (s : List Char) : Option Host :=
  if s.head? == some '[' then bracketed? s
  else
    match domainToAscii? (decode s) with
    | none => none
    | some [] => none
    | some name =>
      if endsInNumber name then (readV4? name).map .v4 else some (.name (String.ofList name))

/-- The host of a scheme that is not special. -/
def plainHost? (s : List Char) : Option Host :=
  if s.head? == some '[' then bracketed? s
  else if s.any (fun c => c.toNat == 0 || " #/:<>?@[\\]^|".toList.contains c) then none
  else some (.name (String.ofList (encode isControl s)))

/-- A port after its colon: digits, none of which may be missing to another character. -/
def port? (s : List Char) : Option (Option Nat) :=
  if s.isEmpty then some none
  else if s.all Char.isDigit then
    let n := s.foldl (fun n c => n * 10 + (c.toNat - 48)) 0
    if n ≤ 65535 then some (some n) else none
  else none

/-- User name and password, encoded; an empty password is dropped. -/
def credentialsOf (s : List Char) : String × Option String :=
  let user := s.takeWhile (· ≠ ':')
  let rest := (s.dropWhile (· ≠ ':')).drop 1
  (String.ofList (encode inUserSet user),
    if rest.isEmpty then none else some (String.ofList (encode inUserSet rest)))

/-! ## Path -/

/-- A segment that stands for the segment before it. -/
def isDoubleDot (s : String) : Bool :=
  ["..", "%2e%2e", "%2e.", ".%2e"].contains (String.ofList (s.toList.map Char.toLower))

/-- A segment that stands for nothing. -/
def isSingleDot (s : String) : Bool :=
  [".", "%2e"].contains (String.ofList (s.toList.map Char.toLower))

/-- A letter followed by a colon. -/
def isDrive (s : String) : Bool :=
  match s.toList with
  | [c, ':'] => c.isAlpha
  | _ => false

/-- Segments kept so far, last first, without the last of them; a file path keeps its drive. -/
def dropLastSegment (file : Bool) : List String → List String
  | [] => []
  | [s] => if file && isDrive s then [s] else []
  | _ :: rest => rest

/-- Segments with dots resolved; `done` holds those kept so far, last first. -/
def resolveDots (file : Bool) (done : List String) : List String → List String
  | [] => done.reverse
  | s :: rest =>
    let last := rest.isEmpty
    let done :=
      if isDoubleDot s then
        let kept := dropLastSegment file done
        if last then "" :: kept else kept
      else if isSingleDot s then (if last then "" :: done else done)
      else s :: done
    resolveDots file done rest

/-- The segments of a path after its first slash. -/
def segmentsOf (special : Bool) (s : List Char) : List String :=
  (splitOn (isSlash special) s).map fun part => String.ofList (encode inPathSet part)

/-- A leading segment of a file path that starts with a drive: the drive is a segment of its own,
and a bar after its letter is a colon. -/
def splitDrive : List String → List String
  | [] => []
  | s :: rest =>
    match s.toList with
    | [c, '|'] => if c.isAlpha then String.ofList [c, ':'] :: rest else s :: rest
    | c :: ':' :: d :: more =>
      if c.isAlpha then String.ofList [c, ':'] :: String.ofList (d :: more) :: rest else s :: rest
    | _ => s :: rest

/-- The path of a file URL: slashes at the front count as one. -/
def filePath (s : List Char) : Path :=
  let s := match s with
    | c :: rest => if isSlash true c then rest else c :: rest
    | [] => []
  let parts := resolveDots true [] (splitDrive (segmentsOf true s))
  match parts.dropWhile (· == "") with
  | [] => .segments [""]
  | parts => .segments parts

/-- The path after an authority. -/
def pathAfterAuthority (special : Bool) (s : List Char) : Path :=
  match s with
  | [] => if special then .segments [""] else .segments []
  | c :: rest =>
    .segments (resolveDots false []
      (segmentsOf special (if isSlash special c then rest else c :: rest)))

/-! ## The whole -/

/-- Query and fragment of the rest of a URL. -/
def tailOf (special : Bool) (s : List Char) : Option String × Option String :=
  let fragment (s : List Char) : Option String :=
    match s with
    | '#' :: f => some (String.ofList (encode inFragmentSet f))
    | _ => none
  match s with
  | '?' :: q =>
    (some (String.ofList (encode (inQuerySet special) (q.takeWhile (· ≠ '#')))),
      fragment (q.dropWhile (· ≠ '#')))
  | s => (none, fragment s)

/-- Whether a character ends the path. -/
def endsPath (c : Char) : Bool := c == '?' || c == '#'

/-- A URL without authority. -/
def withoutAuthority (scheme : String) (path : Path) (rest : List Char) : Url :=
  let (query, fragment) := tailOf (isSpecial scheme) rest
  ⟨scheme, false, "", none, none, none, path, query, fragment⟩

/-- The rest of a URL after the two slashes of its authority. -/
def afterSlashes? (scheme : String) (s : List Char) : Option Url := do
  let special := isSpecial scheme
  let area := s.takeWhile (!endsAuthority special ·)
  let rest := s.dropWhile (!endsAuthority special ·)
  let (user?, hostPort) := splitUser area
  if user? == some [] && hostPort.isEmpty && !rest.isEmpty then none
  let (username, password) := credentialsOf (user?.getD [])
  let (hostText, portText) := splitHost false hostPort
  if hostText.isEmpty &&
    (special || !portText.isEmpty || username ≠ "" || password.isSome) then none
  let host ← if hostText.isEmpty then some none
    else (if special then specialHost? hostText else plainHost? hostText).map some
  let (portDigits, rest) :=
    (portText.drop 1).span (fun c => !(c == '\\')) |> fun p => (p.1, p.2 ++ rest)
  let port ← port? portDigits
  let path := rest.takeWhile (!endsPath ·)
  let (query, fragment) := tailOf special (rest.dropWhile (!endsPath ·))
  some ⟨scheme, true, username, password, host,
    port.filter (fun n => standardPort? scheme ≠ some n), pathAfterAuthority special path,
    query, fragment⟩

/-- The host of a file URL; the machine's own name counts as no host. -/
def fileHost? (s : List Char) : Option (Option Host) :=
  if s.isEmpty then some none
  else (specialHost? s).map fun h => if h = .name "localhost" then none else some h

/-- The rest of a file URL after its colon. -/
def fileUrl? (s : List Char) : Option Url := do
  let (area, rest) := match s with
    | a :: b :: rest =>
      if isSlash true a && isSlash true b then
        let area := rest.takeWhile (!endsAuthority true ·)
        if isDrive (String.ofList (area.map fun c => if c == '|' then ':' else c)) then ([], rest)
        else (area, rest.dropWhile (!endsAuthority true ·))
      else ([], s)
    | _ => ([], s)
  let host ← fileHost? area
  let path := filePath (rest.takeWhile (!endsPath ·))
  let (query, fragment) := tailOf true (rest.dropWhile (!endsPath ·))
  let host := match path with
    | .segments (first :: _) => if isDrive first then none else host
    | _ => host
  some ⟨"file", true, "", none, host, none, path, query, fragment⟩

/-- Read an absolute URL. -/
def parse? (input : String) : Option Url := do
  let (scheme, rest) ← splitScheme? (clean input.toList)
  if scheme == "file" then fileUrl? rest
  else if isSpecial scheme then afterSlashes? scheme (rest.dropWhile (isSlash true))
  else
    match rest with
    | '/' :: '/' :: after => afterSlashes? scheme after
    | '/' :: after =>
      some (withoutAuthority scheme
        (pathAfterAuthority false ('/' :: after.takeWhile (!endsPath ·)))
        (after.dropWhile (!endsPath ·)))
    | text =>
      some (withoutAuthority scheme
        (.opaqueText (String.ofList (encode isControl (text.takeWhile (!endsPath ·)))))
        (text.dropWhile (!endsPath ·)))

end CodeReview.Url

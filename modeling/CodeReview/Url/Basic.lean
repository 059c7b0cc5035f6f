import CodeReview.Url.Address

/-!
# URLs

A URL as a record of its parts, and its text.  The parts hold encoded text, as they are written.

A scheme is special when it is one of a fixed few, each with a standard port; such a URL always has
a path that starts with a slash.
-/

namespace CodeReview

/-- The host of a URL. -/
inductive Url.Host where
  /-- A name in ASCII, or in a scheme that is not special any encoded text. -/
  | name (text : String)
  | v4 (address : Nat)
  | v6 (groups : List Nat)
  deriving Repr, DecidableEq

/-- The path of a URL. -/
inductive Url.Path where
  /-- Text after the scheme that has no structure. -/
  | opaqueText (text : String)
  /-- Segments, each after a slash. -/
  | segments (parts : List String)
  deriving Repr, DecidableEq

/-- The parts of a URL. -/
structure Url where
  scheme : String
  /-- Two slashes follow the scheme. -/
  hasAuthority : Bool
  username : String
  password : Option String
  /-- Absent also where the authority is empty. -/
  host : Option Url.Host
  /-- Absent where it is the scheme's standard port. -/
  port : Option Nat
  path : Url.Path
  query : Option String
  fragment : Option String
  deriving Repr, DecidableEq

namespace Url

/-- The standard port of a special scheme other than `file`. -/
def standardPort? (scheme : String) : Option Nat :=
  if scheme == "http" || scheme == "ws" then some 80
  else if scheme == "https" || scheme == "wss" then some 443
  else if scheme == "ftp" then some 21
  else none

/-- A scheme whose URLs have hosts or name files. -/
def isSpecial (scheme : String) : Bool :=
  scheme == "file" || (standardPort? scheme).isSome

/-- The text of a host. -/
def Host.text : Host → String
  | name t => t
  | v4 a => writeV4 a
  | v6 g => "[" ++ writeV6 g ++ "]"

/-- The text of a path. -/
def Path.text : Path → String
  | opaqueText t => t
  | segments parts => String.join (parts.map ("/" ++ ·))

/-- User name and password as they stand before the host. -/
def credentials (u : Url) : String :=
  if u.username == "" && u.password.isNone then ""
  else u.username ++ (u.password.elim "" (":" ++ ·)) ++ "@"

/-- What stands between the scheme and the path. -/
def authority (u : Url) : String :=
  if u.hasAuthority then
    "//" ++ u.credentials ++ (u.host.elim "" Host.text) ++ (u.port.elim "" (":" ++ toString ·))
  else
    match u.path with
    | .segments ("" :: _ :: _) => "/."
    | _ => ""

/-- The text of a URL. -/
def text (u : Url) : String :=
  u.scheme ++ ":" ++ u.authority ++ u.path.text ++ (u.query.elim "" ("?" ++ ·)) ++
    (u.fragment.elim "" ("#" ++ ·))

/-- Fetched over a network. -/
def isWeb (u : Url) : Bool := u.scheme == "http" || u.scheme == "https"

end Url

end CodeReview

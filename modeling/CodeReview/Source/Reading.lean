import CodeReview.Http.Exchange
import CodeReview.Http.Status

/-!
# Reading sources

A locator names a source: a local path, a file URL, or a web address.  A text that is no URL of
these kinds is a path, whatever it looks like.
-/

namespace CodeReview.Source

open CodeReview.Text CodeReview.Http

/-- What a locator names. -/
inductive Place where
  | web (url : Url)
  | file (path : String)
  /-- A file URL that names no local file. -/
  | nowhere
  deriving Repr, DecidableEq

/-- A path whose last two characters name a drive stands for the drive's root. -/
def closeDrive (s : List Char) : List Char :=
  match s.reverse with
  | d :: c :: _ :: _ => if c.isAlpha && (d == ':' || d == '|') then s ++ ['/'] else s
  | _ => s

/-- The local path of a file URL; a host other than this machine has none. -/
def filePath? (u : Url) : Option String :=
  match u.path with
  | .opaqueText _ => none
  | .segments parts =>
    if u.host.isSome then none
    else some (String.ofList (closeDrive (parts.flatMap fun p =>
      '/' :: (ofBytes (Url.decode p.toList)).toList)))

/-- What a locator without blank ends names. -/
def place (locator : String) : Place :=
  match Url.parse? locator with
  | some u =>
    if u.isWeb && u.host.isSome then .web u
    else if u.scheme == "file" then ((filePath? u).map .file).getD .nowhere
    else .file locator
  | none => .file locator

/-- Read a local file. -/
def readFile (locator path : String) : Command String := do
  Act.log .debug ("📄 Reading source from " ++ path)
  Command.orFail (do pure ((← get).disk.readText path)) fun e => .sourceRead locator e.message

/-- Fetch a source from the web. -/
def fetch (timeout : Duration) (locator : String) (url : Url) : Command String := do
  Act.log .debug ("🌐 Fetching source from " ++ url.text)
  let request ← Command.orFail (pure (build .get url [] none))
    fun e => .sourceFetch locator none e.message
  let response ← Command.orFail (send timeout request)
    fun e => .sourceFetch locator none e.message
  if !response.isSuccess then
    throw (.sourceFetch locator (some response.status)
      ((phrase? response.status).getD "request failed"))
  let text ← Command.orFail (pure response.text)
    fun e => .sourceFetch locator (some response.status) e.message
  Act.log .debug ("📥 Fetched " ++ toString text.utf8ByteSize ++ " bytes")
  pure text

/-- The text of the source that a locator names. -/
def resolve (timeout : Duration) (locator : String) : Command String := do
  let locator := trim locator
  if locator == "" then throw (.sourceRead locator "empty path")
  match place locator with
  | .web url => fetch timeout locator url
  | .file path => readFile locator path
  | .nowhere => throw (.sourceRead locator "invalid file URL")

end CodeReview.Source

import CodeReview.Disk.Path

/-!
# The disk

A disk is a finite tree of directories and files.  It is held as a table from places to entries,
where a place is the list of names that leads there from the root; the root itself is always a
directory.

A path is followed one part after the other: each part but the last has to name a directory that
exists.  Reading, writing and making directories report the first thing that is in the way.
-/

namespace CodeReview

/-- Where something is: the names that lead to it from the root. -/
abbrev Place := List String

/-- What is at a place. -/
inductive Entry where
  | file (content : ByteArray)
  | directory

instance : DecidableEq Entry
  | .file a, .file b =>
    match ByteArray.instDecidableEq a b with
    | isTrue h => isTrue (h ▸ rfl)
    | isFalse h => isFalse fun e => h (Entry.file.inj e)
  | .file _, .directory | .directory, .file _ => isFalse nofun
  | .directory, .directory => isTrue rfl

/-- Why the disk did not do what was asked. -/
inductive DiskFault where
  | notFound
  | notDirectory
  | isDirectory
  | nameTooLong
  | alreadyExists
  /-- The path holds a character that no name may hold. -/
  | nulInName
  /-- The file is not text. -/
  | notText
  deriving Repr, DecidableEq

/-- The wording of a fault. -/
def DiskFault.message : DiskFault → String
  | notFound => "No such file or directory (os error 2)"
  | notDirectory => "Not a directory (os error 20)"
  | isDirectory => "Is a directory (os error 21)"
  | nameTooLong => "File name too long (os error 36)"
  | alreadyExists => "File exists (os error 17)"
  | nulInName => "file name contained an unexpected NUL byte"
  | notText => "stream did not contain valid UTF-8"

/-- A table from places to entries, with the directory that paths start from. -/
structure Disk where
  entries : List (Place × Entry)
  workingPlace : Place
  deriving DecidableEq

namespace Disk

/-- What is at a place. -/
def get? (d : Disk) (place : Place) : Option Entry :=
  if place = [] then some .directory else d.entries.lookup place

/-- Put an entry at a place, instead of what was there. -/
def put (d : Disk) (place : Place) (entry : Entry) : Disk :=
  { d with entries := (place, entry) :: d.entries.filter fun e => e.1 ≠ place }

/-- Longest name of an entry, in bytes. -/
def maxName : Nat := 255

/-- A path has fewer bytes than this. -/
def maxPath : Nat := 4096

/-- Follow one part from a place that is known to be a directory. -/
def step (place : Place) (part : String) : Except DiskFault Place :=
  if part = ".." then .ok place.dropLast
  else if maxName < part.utf8ByteSize then .error .nameTooLong
  else .ok (place ++ [part])

/-- Follow parts from a place, each of which has to be a directory. -/
def enter (d : Disk) : Place → List String → Except DiskFault Place
  | place, [] => .ok place
  | place, part :: rest =>
    match step place part with
    | .error e => .error e
    | .ok next =>
      match d.get? next with
      | none => .error .notFound
      | some (.file _) => .error .notDirectory
      | some .directory => d.enter next rest

/-- The place that a path starts from. -/
def start (d : Disk) (path : String) : Place :=
  if Path.isAbsolute path then [] else d.workingPlace

/-- The place that a path names; its last part need not exist. -/
def locate (d : Disk) (path : String) : Except DiskFault Place :=
  if path.contains '\x00' then .error .nulInName
  else if path == "" then .error .notFound
  else if maxPath ≤ path.utf8ByteSize then .error .nameTooLong
  else
    match (Path.parts path).getLast? with
    | none => .ok (d.start path)
    | some last =>
      match d.enter (d.start path) (Path.parts path).dropLast with
      | .error e => .error e
      | .ok place => step place last

/-- What a path names. -/
def find (d : Disk) (path : String) : Except DiskFault Entry :=
  match d.locate path with
  | .error e => .error e
  | .ok place =>
    match d.get? place with
    | none => .error .notFound
    | some (.file c) => if Path.namesDirectory path then .error .notDirectory else .ok (.file c)
    | some .directory => .ok .directory

/-- Something is there. -/
def exists? (d : Disk) (path : String) : Bool :=
  match d.find path with
  | .ok _ => true
  | .error _ => false

/-- A directory is there. -/
def isDirectory (d : Disk) (path : String) : Bool :=
  match d.find path with
  | .ok .directory => true
  | _ => false

/-- The content of a file. -/
def readBytes (d : Disk) (path : String) : Except DiskFault ByteArray :=
  match d.find path with
  | .error e => .error e
  | .ok .directory => .error .isDirectory
  | .ok (.file c) => .ok c

/-- The text of a file. -/
def readText (d : Disk) (path : String) : Except DiskFault String :=
  match d.readBytes path with
  | .error e => .error e
  | .ok c =>
    match String.fromUTF8? c with
    | some s => .ok s
    | none => .error .notText

/-- Where a file can be written: the place that a path names, unless a directory is meant. -/
def writable (d : Disk) (path : String) : Except DiskFault Place :=
  match d.locate path with
  | .error e => .error e
  | .ok place =>
    match d.get? place with
    | some .directory => .error .isDirectory
    | none =>
      if Path.endsInDot path then .error .notFound
      else if Path.namesDirectory path then .error .isDirectory
      else .ok place
    | some (.file _) =>
      if Path.endsInDot path then .error .notDirectory
      else if Path.namesDirectory path then .error .isDirectory
      else .ok place

/-- Make a text the whole content of a file. -/
def writeText (d : Disk) (path text : String) : Except DiskFault Disk :=
  match d.writable path with
  | .error e => .error e
  | .ok place => .ok (d.put place (.file text.toUTF8))

/-- Make one directory, given by the parts that lead to it from a place. -/
def makeDirectory (d : Disk) (place : Place) (parts : List String) : Except DiskFault Disk :=
  match parts.getLast? with
  | none => .error .alreadyExists
  | some last =>
    match d.enter place parts.dropLast with
    | .error e => .error e
    | .ok above =>
      match step above last with
      | .error e => .error e
      | .ok target =>
        match d.get? target with
        | some _ => .error .alreadyExists
        | none => .ok (d.put target .directory)

/-- Whether parts lead from a place to a directory. -/
def leadsToDirectory (d : Disk) (place : Place) (parts : List String) : Bool :=
  match d.enter place parts with
  | .ok _ => true
  | .error _ => false

/-- Make a directory with the directories above it; the parts are given last first.  The disk is
returned also when a fault stops the work halfway. -/
def makeDirectories (d : Disk) (place : Place) : List String → Except DiskFault Unit × Disk
  | [] => (.ok (), d)
  | last :: above =>
    let parts := (last :: above).reverse
    let settle (d : Disk) (e : DiskFault) : Except DiskFault Unit × Disk :=
      if d.leadsToDirectory place parts then (.ok (), d) else (.error e, d)
    match d.makeDirectory place parts with
    | .ok d => (.ok (), d)
    | .error .notFound =>
      match d.makeDirectories place above with
      | (.error e, d) => (.error e, d)
      | (.ok (), d) =>
        match d.makeDirectory place parts with
        | .ok d => (.ok (), d)
        | .error e => settle d e
    | .error e => settle d e

/-- Make the directories above the file that a path names. -/
def makeParents (d : Disk) (path : String) : Except DiskFault Unit × Disk :=
  let above := (Path.parts path).dropLast
  if above.isEmpty then (.ok (), d)
  else if (above.any (·.contains '\x00')) then (.error .nulInName, d)
  else if maxPath ≤ ("/".intercalate above).utf8ByteSize then (.error .nameTooLong, d)
  else d.makeDirectories (d.start path) above.reverse

/-- Write a text to a file after making the directories above it. -/
def store (d : Disk) (path text : String) : Except DiskFault Unit × Disk :=
  match d.makeParents path with
  | (.error e, d) => (.error e, d)
  | (.ok (), d) =>
    match d.writeText path text with
    | .error e => (.error e, d)
    | .ok d => (.ok (), d)

end Disk

end CodeReview

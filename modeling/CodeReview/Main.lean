import CodeReview.Program.Basic
import Std.Time.Zoned

/-!
# The command line

Runs the program on the surroundings of its process.  Everything that is decided is decided by
`Program` and `Session` on a machine; here that machine is made before each command, and what the
command did to it is carried over afterwards:

* the disk of the machine holds what the paths that the command can look at name;
* what the command wrote there is written to the real disk, and what it told is told;
* where it waited, the process waits.

There is no network here: every request ends as one that is refused.
-/

open CodeReview

namespace CodeReview.Surroundings

/-- The variables in a block in which each one ends in a zero byte. -/
def environmentOf (block : List UInt8) : List (String × List UInt8) :=
  (Text.splitOn (· == 0) block).filterMap fun one =>
    match String.fromUTF8? ⟨(one.takeWhile (· != 61)).toArray⟩ with
    | some name => if name == "" then none else some (name, (one.dropWhile (· != 61)).drop 1)
    | none => none

/-- The environment of the process. -/
def environment : IO (List (String × List UInt8)) := do
  pure (environmentOf (← IO.FS.readBinFile "/proc/self/environ").toList)

/-- The real path of a place. -/
def pathOf (place : Place) : String := "/" ++ "/".intercalate place

/-- The code with which reading a directory as a file is refused. -/
def directoryCode : UInt32 := 21

/-- What is at a place of the real disk, as far as it can be read. -/
def entryAt (place : Place) : IO (Option Entry) := do
  match ← (IO.FS.readBinFile (pathOf place)).toBaseIO with
  | .ok content => pure (some (.file content))
  | .error (.inappropriateType _ code _) =>
    pure (if code = directoryCode then some .directory else none)
  | .error _ => pure none

/-- The places on the way to what a path names, and that itself. -/
def placesOn (d : Disk) (path : String) : List Place :=
  let place := (Path.parts path).foldl
    (fun place part => if part = ".." then place.dropLast else place ++ [part]) (d.start path)
  (List.range place.length).map fun n => place.take (n + 1)

/-- Add to a disk what the real disk has at a place. -/
def addPlace (d : Disk) (place : Place) : IO Disk := do
  if (d.get? place).isSome then pure d
  else pure ((← entryAt place).elim d (d.put place))

/-- The disk as far as paths name it. -/
def diskOf (paths : List String) : IO Disk := do
  let here := Path.parts (toString (← IO.currentDir))
  let empty : Disk := ⟨[], here⟩
  (("." :: paths).flatMap (placesOn empty)).foldlM addPlace empty

/-- Write to the real disk what is new in a disk, directories above files first. -/
def carryOver (before after : Disk) : IO Unit :=
  ((after.entries.filter fun e => before.entries.lookup e.1 ≠ some e.2).mergeSort
    fun a b => a.1.length ≤ b.1.length).forM fun e =>
    match e.2 with
    | .directory => IO.FS.createDirAll (pathOf e.1)
    | .file content => IO.FS.writeBinFile (pathOf e.1) content

/-- The local time as it stands in the names of generated files. -/
def stamp : IO String := do
  let now ← Std.Time.PlainDateTime.now
  let padded (width : Nat) (n : Int) : String :=
    let digits := toString n
    String.ofList (List.replicate (width - digits.length) '0') ++ digits
  pure (padded 4 now.year.toInt ++ padded 2 now.month.val ++ padded 2 now.day.val ++ "_" ++
    padded 2 now.hour.val ++ padded 2 now.minute.val ++ padded 2 now.second.val)

/-- The machine that a command runs on which looks at these paths. -/
def machine (paths : List String) : IO Machine := do
  let terminal := if ← (← IO.getStderr).isTty then some 0 else none
  pure
    { disk := ← diskOf paths
      environment := ← environment
      network := fun _ _ => .refused
      models := .network
      clock := ← IO.monoNanosNow
      stamp := ← stamp
      terminal
      printer := none
      console := none
      journal := [] }

/-- Paths of which one may be the configuration's. -/
def configPaths (m : Machine) (given : Option String) : List String :=
  given.toList ++ (m.setting? Config.pathVariable).toList ++ [Config.standardName] ++
    ((m.setting? "HOME").map Config.homePath).toList

/-- Paths that an order can look at, apart from the configuration's. -/
def orderPaths : CommandLine.Order → List String
  | .init _ => []
  | .review i =>
    (match Source.place (Text.trim i.locator) with
      | .file path => [path]
      | _ => []) ++ i.output.toList

/-- Tell what an event tells, or wait as long as it waited. -/
def tell (depth : Program.Depth) (e : Event) : IO Unit := do
  let out ← IO.getStdout
  let err ← IO.getStderr
  out.putStr (Program.outText e)
  out.flush
  err.putStr (Program.errText depth e)
  err.flush
  match e with
  | .waited d => IO.sleep (d / 1000000).toUInt32
  | _ => pure ()

/-- Carry out an act that looks at these paths. -/
def perform {α : Type} (verbosity : Nat) (paths : List String) (act : Act α) : IO α := do
  let m ← machine paths
  let (a, after) := act.run m
  carryOver m.disk after.disk
  after.journal.forM (tell (Program.shownDepth m verbosity))
  pure a

/-- The next line of the input with its line feed; empty at the end. -/
partial def readLine (input : IO.FS.Stream) (done : List UInt8) : IO (List UInt8) := do
  match (← input.read 1).toList with
  | [b] => if b == 10 then pure (b :: done).reverse else readLine input (b :: done)
  | _ => pure done.reverse

/-- Paths that a typed line can look at. -/
def linePaths (s : Session) (line : List UInt8) : List String :=
  match ((String.fromUTF8? ⟨line.toArray⟩).bind fun text => CommandLine.words? (Text.trim text)).map
      CommandLine.parse with
  | some (.ok c) => c.configPath.getD s.configPath :: (c.order.map orderPaths).getD []
  | _ => []

/-- Take lines from the input until one of them or its end ends the session. -/
partial def takeInput (verbosity : Nat) (s : Session) : IO (Except Failure Unit) := do
  match ← perform verbosity [] Session.prompt.run with
  | .error f => pure (.error f)
  | .ok () => do
    match ← readLine (← IO.getStdin) [] with
    | [] => perform verbosity [] (Session.display "\n" false).run
    | line => do
      match ← perform verbosity (linePaths s line) (s.takeLine line) with
      | (.error f, _) => pure (.error f)
      | (.ok false, _) => pure (.ok ())
      | (.ok true, s) => takeInput verbosity s

/-- Run a session on the input of the process. -/
def interact (verbosity : Nat) (s : Session) : IO Nat := do
  perform verbosity [] Session.greet
  let result ← takeInput verbosity s
  perform verbosity [] (do
    Session.part result
    Program.conclude result)

/-- Run the program. -/
def run (words : List String) : IO Nat := do
  match CommandLine.parse words with
  | .error stop => perform 0 [] (Program.stopped stop)
  | .ok c => do
    let paths := configPaths (← machine []) c.configPath
    perform c.verbosity [] Program.warnOfFilter
    match c.order with
    | some order =>
      perform c.verbosity (paths ++ orderPaths order) (do Program.conclude (← Program.execute c []))
    | none => interact c.verbosity (Program.sessionOf (← machine paths) c)

end CodeReview.Surroundings

/-- Run the program on its words. -/
def main (words : List String) : IO UInt32 := do
  pure (← Surroundings.run words).toUInt32

import CodeReview.Program.LogFilter
import CodeReview.Session.Interaction

/-!
# The program

One command, or an interactive session where no command is given.  The exit code says how it ended.
-/

namespace CodeReview.Program

open CodeReview.CommandLine

/-- The session that a command line starts. -/
def sessionOf (m : Machine) (c : Line) : Session :=
  .start (Config.location m c.configPath) c.waitOnRateLimit

/-- Tell the user on standard error why a command failed. -/
def complain (f : Failure) : Act Unit := do
  Act.log .debug ("[" ++ f.severity.name ++ "] " ++ f.details)
  Act.note (.complained f.complaint)

/-- Carry out a command line; a session takes its commands from lines. -/
def execute (c : Line) (lines : List (List UInt8)) : Act (Except Failure Unit) := do
  let s := sessionOf (← get) c
  match c.order with
  | some order => do pure (← s.runOrder order).1
  | none => do pure (← s.interact lines).1

/-- Exit code of a result, which is told to the user where it is a failure. -/
def conclude (result : Except Failure Unit) : Act Nat := do
  match result with
  | .ok () => pure 0
  | .error f => do
    complain f
    pure f.exitCode

/-- Exit code of a command line that is not understood. -/
def usageExitCode : Nat := 2

/-- What is shown where no command comes out of a command line, and the exit code. -/
def stopped : Stop → Act Nat
  | .help topic => do
    Act.note (.shown topic.text)
    pure 0
  | .fault f => do
    Act.note (.complained (f.message ++ "\n"))
    pure usageExitCode

/-- Warn of the parts of the log filter that are skipped. -/
def warnOfFilter : Act Unit := do
  (((← get).setting? filterVariable).elim [] filterWarnings).forM fun w =>
    Act.note (.complained w)

/-- Run the program on its words and the lines of its input. -/
def run (words : List String) (lines : List (List UInt8)) : Act Nat :=
  match CommandLine.parse words with
  | .error stop => stopped stop
  | .ok c => do
    warnOfFilter
    conclude (← execute c lines)

/-- The verbosity that the words ask for. -/
def verbosityOf (words : List String) : Nat :=
  match CommandLine.parse words with
  | .ok c => c.verbosity
  | .error _ => 0

/-- What an event writes to standard output. -/
def outText : Event → String
  | .printed text | .shown text => text
  | _ => ""

/-- What an event writes to standard error. -/
def errText (depth : Depth) : Event → String
  | .logged level text => if depthOf level ≤ depth then logLine level text else ""
  | .complained text | .drawn text => text
  | _ => ""

end CodeReview.Program

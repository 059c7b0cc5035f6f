import CodeReview.Session.Basic
import CodeReview.Text.Utf8

/-!
# Interactive sessions

A session that reads its commands from lines.  Before each line a prompt is shown.  What goes wrong
with a command is shown in the console and does not end the session; an exit word, the end of the
input and the interrupt key do, and so do lines that are no text and a console that takes no text.
-/

namespace CodeReview

open CodeReview.Text CodeReview.CommandLine

namespace Session

/-- What is shown before each line. -/
def promptText : String := "Enter a command (or 'exit' to quit): "

/-- The words that end a session. -/
def exitWords : List String := ["exit", "quit"]

/-- Show text in the console, and pass it on at once if that is wanted. -/
def display (text : String) (flush : Bool) : Command Unit := do
  Command.write (← get).console flush (.shown text)

/-- Use another configuration for a review; this is possible until one has been loaded. -/
def switchConfig (s : Session) (line path : String) : Except Failure Session :=
  if Path.isSame path s.configPath then .ok s
  else if s.desk.isSome then
    .error (.userInput line ("configuration already loaded from '" ++ s.configPath ++
      "'; restart the session to use '" ++ path ++ "'"))
  else .ok { s with configPath := path }

/-- Carry out the order of a command line that was typed as `line`. -/
def runTyped (s : Session) (line : String) (c : CommandLine.Line) :
    Act (Except Failure Unit × Session) :=
  let wait := s.waitOnRateLimit || c.waitOnRateLimit
  match c.order with
  | none => pure (.error (.userInput line "no command given"), s)
  | some (.init writeSample) => s.run wait (c.configPath.getD s.configPath) (.init writeSample)
  | some (.review i) =>
    match c.configPath.elim (.ok s) (s.switchConfig line) with
    | .error f => pure (.error f, s)
    | .ok s => s.run wait s.configPath (.review i)

/-- Carry out a line without blank ends. -/
def runLine (s : Session) (line : String) : Act (Except Failure Unit × Session) :=
  match words? line with
  | none => pure (.error (.userInput line "unterminated quote"), s)
  | some words =>
    match CommandLine.parse words with
    | .error (.help topic) => do pure (← (display topic.text false).run, s)
    | .error (.fault f) => pure (.error (.userInput line f.message), s)
    | .ok c => s.runTyped line c

/-- A text is an exit word; letter case does not matter. -/
def isExit (line : String) : Bool := exitWords.contains (lowerAscii line)

/-- Carry out a line of text; says whether the session goes on. -/
def answerLine (s : Session) (line : String) : Act (Except Failure Bool × Session) := do
  let line := trim line
  if line == "" then pure (.ok true, s)
  else if isExit line then pure (.ok false, s)
  else
    match ← s.runLine line with
    | (.ok (), s) => pure (.ok true, s)
    | (.error f, s) => do
      Act.log .debug f.details
      pure ((← (display (f.inlineMessage ++ "\n") false).run).map fun _ => true, s)

/-- Take a line as it was read, with its line feed; says whether the session goes on. -/
def takeLine (s : Session) (line : List UInt8) : Act (Except Failure Bool × Session) :=
  match String.fromUTF8? ⟨line.toArray⟩ with
  | none => pure (.error (.userInput "<stdin>" (faultText line)), s)
  | some text => s.answerLine text

/-- Show the prompt. -/
def prompt : Command Unit := display promptText true

/-- Take lines until one of them or their end ends the session. -/
def takeLines (s : Session) : List (List UInt8) → Act (Except Failure Unit × Session)
  | [] => do
    match ← prompt.run with
    | .error f => pure (.error f, s)
    | .ok () => do pure (← (display "\n" false).run, s)
  | line :: rest => do
    match ← prompt.run with
    | .error f => pure (.error f, s)
    | .ok () =>
      match ← s.takeLine line with
      | (.error f, s) => pure (.error f, s)
      | (.ok false, s) => pure (.ok (), s)
      | (.ok true, s) => s.takeLines rest

/-- The lines of an input, each with its line feed.  A last line may lack it. -/
def linesOf : List UInt8 → List (List UInt8)
  | [] => []
  | b :: rest =>
    if b == 10 then [b] :: linesOf rest
    else
      match linesOf rest with
      | [] => [[b]]
      | line :: lines => (b :: line) :: lines

/-- The lines of an input at whose end the interrupt key is pressed: an unfinished line is lost. -/
def finishedLinesOf (input : List UInt8) : List (List UInt8) :=
  (linesOf input).filter fun line => line.getLast? == some 10

/-- Greet the user. -/
def greet : Act Unit :=
  Act.log .info "🤖 Interactive mode. Type '--help' for commands, 'exit' to quit."

/-- Say goodbye, unless the session broke off. -/
def part : Except Failure Unit → Act Unit
  | .ok () => Act.log .info "👋 Bye"
  | .error _ => pure ()

/-- Take lines from an input, with a greeting and a farewell. -/
def interact (s : Session) (lines : List (List UInt8)) : Act (Except Failure Unit × Session) := do
  greet
  let (result, s) ← s.takeLines lines
  part result
  pure (result, s)

end Session

end CodeReview

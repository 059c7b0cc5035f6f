import CodeReview.Machine

/-!
# Spinners

What shows that a model is at work: on a terminal a message with a turning sign, elsewhere a line
of the log.  A spinner ends once with good or bad news; what is said after that goes to the log.
-/

namespace CodeReview.Terminal

/-- The turning sign. -/
def frames : List String := ["⠋", "⠙", "⠹", "⠸", "⠼", "⠴", "⠦", "⠧", "⠇", "⠏"]

/-- Time between two frames. -/
def framePeriod : Duration := Duration.ofMillis 150

/-- A message with the `n`-th frame, over what is in the line. -/
def frame (message : String) (n : Nat) : String :=
  "\r" ++ message ++ " " ++ frames.getD (n % frames.length) "" ++ " "

/-- Clear the line, then a sign and a text. -/
def closing (sign text : String) : String := "\r\x1b[K" ++ sign ++ " " ++ text ++ "\n"

/-- A spinner. -/
structure Spinner where
  message : String
  /-- It turns on a terminal. -/
  turning : Bool
  deriving Repr, DecidableEq

namespace Spinner

/-- Start a spinner. -/
def start (message : String) : Act Spinner := do
  match (← get).terminal with
  | none => do
    Act.log .info message
    pure ⟨message, false⟩
  | some _ => do
    Act.note (.drawn (frame message 0))
    pure ⟨message, true⟩

/-- Let a spinner turn for a time that has passed since its start. -/
def turn (s : Spinner) (elapsed : Duration) : Act Unit :=
  if s.turning then
    (List.range (elapsed / framePeriod)).forM fun n => Act.note (.drawn (frame s.message (n + 1)))
  else pure ()

/-- End a spinner with good news. -/
def succeed (s : Spinner) (text : String) : Act Spinner := do
  if s.turning then Act.note (.drawn (closing "✅" text)) else Act.log .info ("✅ " ++ text)
  pure { s with turning := false }

/-- End a spinner with bad news. -/
def fail (s : Spinner) (text : String) : Act Spinner := do
  if s.turning then Act.note (.drawn (closing "❌" text)) else Act.log .debug ("❌ " ++ text)
  pure { s with turning := false }

end Spinner

end CodeReview.Terminal

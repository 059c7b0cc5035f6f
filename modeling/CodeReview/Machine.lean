import CodeReview.Config.Basic
import CodeReview.Config.Malformed
import CodeReview.Disk.Basic
import CodeReview.Failure
import CodeReview.Http.Basic
import CodeReview.RateLimit.Limiter

/-!
# The machine that commands run on

Everything a command can see or change: the disk, the environment, the network, the clocks, the
terminal, and the two places that text is written to.  The machine keeps a journal of what commands
did, in the order in which they did it.

A network is a function: it says what becomes of a request, given how many requests went before.
Models are reached over the network or, in a rehearsal, give replies that were agreed on before.
The wording is a function, too: it says in which words the parsers of configurations refuse a text.

Commands are functions from a machine to a result and the machine afterwards.  A command that fails
leaves behind what it did until then.
-/

namespace CodeReview

/-- How important a line of the log is. -/
inductive Level where
  | error
  | warn
  | info
  | debug
  deriving Repr, DecidableEq

/-- The name of a level. -/
def Level.name : Level → String
  | error => "ERROR"
  | warn => "WARN"
  | info => "INFO"
  | debug => "DEBUG"

/-- A question put to a model. -/
structure Question where
  prompt : String
  source : String
  model : Model
  deriving Repr, DecidableEq

/-- The kinds of fault of a model service. -/
inductive ServiceFault.Kind where
  | api
  | network
  | serialization
  | authentication
  | timeout
  /-- Nothing was sent, because the configuration does not suffice. -/
  | configuration
  deriving Repr, DecidableEq

/-- Why a model gave no text. -/
structure ServiceFault where
  kind : ServiceFault.Kind
  reason : String
  deriving Repr, DecidableEq

/-- A reply that was agreed on before. -/
inductive Reply where
  /-- A text or a fault, after a while. -/
  | given (delay : Duration) (answer : Except ServiceFault String)
  /-- The user presses the interrupt key while the question is pending. -/
  | interrupted

/-- Where the answers of models come from. -/
inductive ModelSource where
  | network
  /-- The reply to a question, given how many questions went before. -/
  | rehearsal (reply : Nat → Reply)

/-- Why a place does not take text. -/
structure Refusal where
  /-- The text is taken, and the refusal comes when it is to be passed on. -/
  whenFlushed : Bool
  reason : String
  deriving Repr, DecidableEq

/-- Something that a command did. -/
inductive Event where
  /-- A line was added to the log. -/
  | logged (level : Level) (text : String)
  /-- A request was sent, with this outcome. -/
  | sent (request : Http.Request) (outcome : Http.Outcome)
  /-- A session tried to load its configuration. -/
  | loaded (path : String) (config : Option Config)
  /-- The limiter was asked for admission. -/
  | decided (time : Instant) (decision : Decision)
  /-- A question was put to its model, wherever the answers come from. -/
  | consulted (question : Question)
  /-- A model was asked in a rehearsal. -/
  | asked (question : Question)
  /-- A result was printed. -/
  | printed (text : String)
  /-- Text was shown in the console of a session. -/
  | shown (text : String)
  /-- Text was written to standard error. -/
  | complained (text : String)
  /-- Text was drawn on the terminal. -/
  | drawn (text : String)
  /-- Time was spent waiting for the limiter. -/
  | waited (duration : Duration)
  deriving Repr, DecidableEq

/-- The surroundings of a command. -/
structure Machine where
  disk : Disk
  /-- Environment variables; their values need not be text. -/
  environment : List (String × List UInt8)
  network : Nat → Http.Request → Http.Outcome
  models : ModelSource
  /-- The clock that the limiter reads. -/
  clock : Instant
  /-- Local date and time as they stand in the names of generated files. -/
  stamp : String
  /-- Columns of the terminal that standard error is, if it is one; zero where they are unknown. -/
  terminal : Option Nat
  /-- Why results cannot be printed. -/
  printer : Option Refusal
  /-- Why the console takes no text. -/
  console : Option Refusal
  /-- What the parsers of configurations say about texts that they refuse. -/
  wording : Config.Malformed → String := Config.Malformed.message
  journal : List Event

/-- What a command does when it cannot fail. -/
abbrev Act := StateM Machine

/-- What a command does. -/
abbrev Command := ExceptT Failure Act

namespace Machine

/-- Add to the journal. -/
def note (m : Machine) (e : Event) : Machine := { m with journal := m.journal ++ [e] }

/-- The text of an environment variable, if it is set and is text. -/
def setting? (m : Machine) (name : String) : Option String :=
  (m.environment.lookup name).bind fun bytes => String.fromUTF8? ⟨bytes.toArray⟩

/-- Requests sent so far. -/
def requestsSent (m : Machine) : Nat :=
  (m.journal.filter fun | .sent .. => true | _ => false).length

/-- Questions asked in a rehearsal so far. -/
def questionsAsked (m : Machine) : Nat :=
  (m.journal.filter fun | .asked .. => true | _ => false).length

/-- Let time pass. -/
def pass (m : Machine) (d : Duration) : Machine := { m with clock := m.clock + d }

end Machine

namespace Act

/-- Add to the journal. -/
def note (e : Event) : Act Unit := modify (·.note e)

/-- Add a line to the log. -/
def log (level : Level) (text : String) : Act Unit := note (.logged level text)

/-- Let time pass. -/
def pass (d : Duration) : Act Unit := modify (·.pass d)

/-- Write to a place that may refuse: the text is noted unless writing is refused.  Passing it on at
once is a step of its own, which may be refused too. -/
def write (place : Option Refusal) (flush : Bool) (e : Event) : Act (Except String Unit) :=
  match place with
  | none => do note e; pure (.ok ())
  | some r => do
    if r.whenFlushed then note e
    pure (if !r.whenFlushed || flush then .error r.reason else .ok ())

end Act

namespace Command

/-- Do something that may go wrong, and turn what went wrong into a failure. -/
def orFail {ε α : Type} (act : Act (Except ε α)) (failure : ε → Failure) : Command α := do
  match ← act with
  | .ok a => pure a
  | .error e => throw (failure e)

/-- Write a result or console text to a place that may refuse. -/
def write (place : Option Refusal) (flush : Bool) (e : Event) : Command Unit :=
  orFail (Act.write place flush e) (.output "<stdout>" ·)

end Command

end CodeReview

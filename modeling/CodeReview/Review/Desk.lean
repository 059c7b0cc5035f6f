import CodeReview.Delivery
import CodeReview.Model.Service
import CodeReview.Review.Preparation
import CodeReview.Terminal.Spinner

/-!
# The review desk

A desk has a configuration and the limiter that goes with it, and takes prepared reviews: each one
has to be admitted by the limiter, then its model is asked once, and the answer is delivered.  A
review that is not admitted leaves no trace but in the log.
-/

namespace CodeReview

/-- A configuration with the state of its quota. -/
structure Desk where
  config : Config
  limiter : Limiter
  deriving Repr, DecidableEq

namespace Desk

/-- A desk that has admitted nothing yet. -/
def ofConfig (c : Config) : Desk := ⟨c, .fresh c.policy⟩

/-- The failure of a review whose model gave no text. -/
def refused (m : Model) (f : ServiceFault) : Failure :=
  match f.kind with
  | .configuration => .configuration f.reason (some "models") none
  | _ => .modelInvocation m.name m.provider.name f.message

/-- Ask the model of a prepared review. -/
def ask (timeout : Duration) (p : Prepared) : Command String := do
  let m := p.model
  let started := (← get).clock
  let spinner ← Terminal.Spinner.start (p.operation.emoji ++ " Running " ++ p.operation.name ++
    " with " ++ m.name ++ " (" ++ m.provider.name ++ ")")
  match ← p.question.ask timeout with
  | none => throw .cancelled
  | some answer => do
    let elapsed := (← get).clock - started
    spinner.turn elapsed
    match answer with
    | .ok text => do
      let _ ← spinner.succeed
        (p.operation.name ++ " finished in " ++ Duration.seconds elapsed ++ "s")
      pure text
    | .error f => do
      let _ ← spinner.fail (p.operation.name ++ " failed")
      throw (refused m f)

/-- Ask the model of a prepared review that was admitted, and deliver the answer. -/
def serve (timeout : Duration) (p : Prepared) (i : Invocation) : Command Delivery := do
  let text ← ask timeout p
  Delivery.deliver text i.output i.locator p.operation

/-- Ask the limiter for admission. -/
def askLimiter (d : Desk) : Act (Decision × Desk) := do
  let now := (← get).clock
  let (decision, limiter) := d.limiter.check now
  Act.note (.decided now decision)
  pure (decision, { d with limiter })

/-- Submit a prepared review. -/
def submit (d : Desk) (p : Prepared) (i : Invocation) : Act (Except Failure Delivery × Desk) := do
  match ← d.askLimiter with
  | (.denied retryAfter, d) => do
    Act.log .debug ("🚦 Request denied, retry after " ++ retryAfter.seconds ++ "s")
    pure (.error (.rateLimited retryAfter), d)
  | (.allowed, d) => do
    pure (← (serve d.config.requestTimeout p i).run, d)

/-- Prepare a review and submit it. -/
def run (d : Desk) (i : Invocation) : Act (Except Failure Delivery × Desk) := do
  match ← (i.prepare d.config).run with
  | .error f => pure (.error f, d)
  | .ok p => d.submit p i

/-- Submit a prepared review; where it is not admitted, wait as long as it takes and submit it
again, at most `waits` times of the `all` that are allowed. -/
def submitPatiently (all : Nat) (p : Prepared) (i : Invocation) :
    Nat → Desk → Act (Except Failure Delivery × Desk)
  | 0, d => d.submit p i
  | waits + 1, d => do
    match ← d.submit p i with
    | (.error (.rateLimited retryAfter), d) => do
      Act.log .warn ("⏳ Rate limit reached, waiting " ++ retryAfter.seconds ++ "s (" ++
        toString (all - waits) ++ "/" ++ toString all ++ ")")
      Act.note (.waited retryAfter)
      Act.pass retryAfter
      submitPatiently all p i waits d
    | outcome => pure outcome

end Desk

end CodeReview

import CodeReview.CommandLine.Words
import CodeReview.Config.File
import CodeReview.Review.Desk
import CodeReview.Terminal.Divider

/-!
# Sessions

A session runs commands one after the other.  Its first review loads the configuration and opens
the desk; all later reviews use the same desk, so that they share one quota.  Until then the path
of the configuration may still be changed.
-/

namespace CodeReview

open CodeReview.CommandLine

/-- What commands of a session share. -/
structure Session where
  configPath : String
  waitOnRateLimit : Bool
  /-- Open once a configuration has been loaded. -/
  desk : Option Desk
  deriving Repr, DecidableEq

/-- Waits for the limiter that a single command may take. -/
def maxWaits : Nat := 3

namespace Session

/-- A session that has loaded nothing yet. -/
def start (configPath : String) (waitOnRateLimit : Bool) : Session :=
  ⟨configPath, waitOnRateLimit, none⟩

/-- The desk of a session; it is opened now if it is not open yet. -/
def openDesk (s : Session) : Act (Except Failure Desk) := do
  match s.desk with
  | some d => pure (.ok d)
  | none => do
    let loaded ← (Config.load s.configPath).run
    Act.note (.loaded s.configPath loaded.toOption)
    pure (loaded.map Desk.ofConfig)

/-- Do a review. -/
def review (s : Session) (wait : Bool) (i : Invocation) :
    Act (Except Failure Delivery × Session) := do
  match ← s.openDesk with
  | .error f => pure (.error f, s)
  | .ok d => do
    match ← (i.prepare d.config).run with
    | .error f => pure (.error f, { s with desk := some d })
    | .ok p => do
      let (result, d) ← d.submitPatiently maxWaits p i (if wait then maxWaits else 0)
      pure (result, { s with desk := some d })

/-- Write the main points of a configuration to the log. -/
def summarize (c : Config) : Act Unit := do
  let line := Terminal.divider (← get).terminal
  Act.log .info line
  Act.log .info "📋 Configured models:"
  c.models.forM fun (key, m) =>
    Act.log .info ((if key = c.defaultModel then "⭐" else "  ") ++ " " ++ key ++ ": " ++ m.name ++
      " via " ++ m.provider.name ++ " (max_tokens " ++ toString m.maxTokens ++ ", temperature " ++
      m.temperature.plain ++ ")")
  Act.log .info ("🚦 Rate limit: " ++ toString c.policy.limit ++ " requests per " ++
    toString c.policy.timeFrame ++ "s")
  Act.log .info ("⏰ Request timeout: " ++ toString c.timeout ++ "s")
  Act.log .info line

/-- Check the configuration at a path, after writing the sample there if that is wanted and nothing
is there yet. -/
def init (path : String) (writeSample : Bool) : Command Unit := do
  Act.log .info "🚀 Initializing reverse-engineer configuration..."
  if writeSample then
    if ← Config.createSample path then
      Act.log .info "📝 Edit the configuration file to add your models."
  let c ← tryCatch (Config.read path) fun f => do
    Act.log .error "💡 Run 'reverse-engineer init --write-sample' to create a configuration file."
    throw f
  summarize c
  let verdict := Config.verdict (← get) c
  verdict.report
  if !verdict.isValid then throw (Config.invalid path verdict.problems)

/-- Carry out an order, without reports about it. -/
def carryOut (s : Session) (wait : Bool) (initPath : String) :
    Order → Act (Except Failure Unit × Session)
  | .init writeSample => do pure (← (init initPath writeSample).run, s)
  | .review i => do
    match ← s.review wait i with
    | (.error f, s) => pure (.error f, s)
    | (.ok delivery, s) => do
      match delivery with
      | .saved path => Act.log .debug ("📁 " ++ i.operation.name ++ " result written to " ++ path)
      | .printed => pure ()
      pure (.ok (), s)

/-- Carry out an order.  Its end is reported unless the user interrupted it. -/
def run (s : Session) (wait : Bool) (initPath : String) (order : Order) :
    Act (Except Failure Unit × Session) := do
  let started := (← get).clock
  let (result, s) ← s.carryOut wait initPath order
  match result with
  | .error .cancelled => pure ()
  | _ =>
    let elapsed := (← get).clock - started
    Act.log .info ("⏱️  Command completed in " ++ Duration.seconds elapsed ++ "s")
  pure (result, s)

/-- Carry out an order that was given when the program was started. -/
def runOrder (s : Session) (order : Order) : Act (Except Failure Unit × Session) :=
  s.run s.waitOnRateLimit s.configPath order

end Session

end CodeReview

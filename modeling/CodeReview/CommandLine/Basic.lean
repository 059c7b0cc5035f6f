import CodeReview.CommandLine.Help

/-!
# Reading command lines

A command line is a list of words: options, the name of a command, and the options of the command.
A word that starts with two hyphens names an option, whose value may follow an equals sign or be
the next word; a word that starts with one hyphen is a row of letters, each an option, of which one
that takes a value takes the rest of the word or the next word.  Two hyphens alone end the options.

An option that takes a value is settled only when the next option, the end of its place, or a
failure comes; a value that starts with a hyphen has to be attached.
-/

namespace CodeReview

/-- A review that was asked for. -/
structure Invocation where
  operation : Operation
  /-- Where the source is. -/
  locator : String
  language : Option String
  targetLanguage : Option String
  /-- Key of the model to be used instead of the default one. -/
  model : Option String
  /-- Path that the result goes to instead of standard output. -/
  output : Option String
  deriving Repr, DecidableEq

namespace CommandLine

/-- What a command line asks for. -/
inductive Order where
  | init (writeSample : Bool)
  | review (invocation : Invocation)
  deriving Repr, DecidableEq

/-- A command line that was understood. -/
structure Line where
  configPath : Option String
  waitOnRateLimit : Bool
  verbosity : Nat
  order : Option Order
  deriving Repr, DecidableEq

/-- Why a command line is not understood. -/
inductive UsageFault where
  /-- An option that has to be there is not. -/
  | missingOption
  /-- An option or value that is unknown here. -/
  | unknownArgument
  | unknownCommand
  /-- An option has no value, or an empty one where that is not allowed. -/
  | missingValue
  /-- An option is given twice. -/
  | repeatedOption
  /-- An option that takes no value has one. -/
  | excessValue
  deriving Repr, DecidableEq

/-- The wording of a fault. -/
def UsageFault.message : UsageFault → String
  | missingOption => "the option --file is required (try '--help')"
  | unknownArgument => "unexpected argument (try '--help')"
  | unknownCommand => "unrecognized command (try '--help')"
  | missingValue => "an option lacks its value (try '--help')"
  | repeatedOption => "an option is given more than once (try '--help')"
  | excessValue => "an option takes no value (try '--help')"

/-- Why no command comes out of a command line. -/
inductive Stop where
  | fault (f : UsageFault)
  | help (topic : Topic)
  deriving Repr, DecidableEq

/-- Options read so far. -/
structure Progress where
  /-- Options that are settled, with their values. -/
  settled : List (Key × String)
  /-- An option that is not settled yet, with its value if it has come. -/
  pending : Option (Key × Option String)
  deriving Repr, DecidableEq

namespace Progress

/-- Nothing read yet. -/
def empty : Progress := ⟨[], none⟩

/-- The next word may be the value of an option. -/
def isWaiting (p : Progress) : Bool :=
  match p.pending with
  | some (_, none) => true
  | _ => false

/-- Settle an option with a value. -/
def settle (p : Progress) (k : Key) (value : String) : Except Stop Progress :=
  if k.kind ≠ .count && (p.settled.lookup k).isSome then .error (.fault .repeatedOption)
  else if k.kind = .path && value == "" then .error (.fault .missingValue)
  else .ok { p with settled := p.settled ++ [(k, value)] }

/-- Settle the option that is pending, if there is one. -/
def resolve (p : Progress) : Except Stop Progress :=
  match p.pending with
  | none => .ok p
  | some (_, none) => .error (.fault .missingValue)
  | some (k, some value) => { p with pending := none }.settle k value

/-- Settle an option with a value, after the one that is pending. -/
def add (p : Progress) (k : Key) (value : String) : Except Stop Progress := do
  (← p.resolve).settle k value

/-- Begin an option whose value is the next word, after the one that is pending. -/
def await (p : Progress) (k : Key) : Except Stop Progress := do
  let p ← p.resolve
  .ok { p with pending := some (k, none) }

/-- The value of an option. -/
def value? (p : Progress) (k : Key) : Option String := p.settled.lookup k

/-- How often an option is given. -/
def count (p : Progress) (k : Key) : Nat := (p.settled.filter (·.1 == k)).length

end Progress

/-- The topic that help is about in a place. -/
def Scope.topic : Scope → Topic
  | none => .program
  | some v => .verb v

/-- Read an option without value. -/
def readSwitch (s : Scope) (p : Progress) (k : Key) : Except Stop Progress :=
  if k.kind = .help then do
    let _ ← p.resolve
    .error (.help (Scope.topic s))
  else p.add k ""

/-- Read a word after its two hyphens. -/
def readLong (s : Scope) (p : Progress) (word : List Char) : Except Stop Progress :=
  let name := String.ofList (word.takeWhile (· ≠ '='))
  let value? := match word.dropWhile (· ≠ '=') with
    | [] => none
    | _ :: value => some (String.ofList value)
  match Scope.named? s name with
  | none => .error (.fault .unknownArgument)
  | some k =>
    if k.takesValue then value?.elim (p.await k) (p.add k)
    else if value?.isSome then .error (.fault .excessValue)
    else readSwitch s p k

/-- Read the letters of a word after its hyphen. -/
def readLetters (s : Scope) (p : Progress) : List Char → Except Stop Progress
  | [] => .ok p
  | c :: rest =>
    match Scope.lettered? s c with
    | none => .error (.fault .unknownArgument)
    | some k =>
      if k.takesValue then
        match rest with
        | [] => p.await k
        | '=' :: value => p.add k (String.ofList value)
        | value => p.add k (String.ofList value)
      else do readLetters s (← readSwitch s p k) rest

/-- The topic that the words behind `help` name. -/
def helpTopic : List String → Except Stop Topic
  | [] => .ok .program
  | [name] =>
    if name == "help" then .ok .help
    else
      match Verb.ofName? name with
      | some v => .ok (.verb v)
      | none => .error (.fault .unknownCommand)
  | _ => .error (.fault .unknownCommand)

/-- What a word without hyphens is, where no value is awaited: nothing that can stand here. -/
def stray (s : Scope) (optionsEnded : Bool) (word : String) : UsageFault :=
  match s with
  | some _ => .unknownArgument
  | none =>
    if optionsEnded && (word == "help" || (Verb.ofName? word).isSome) then .unknownArgument
    else .unknownCommand

/-- Read the words of a place up to the name of a command, which is given with the words behind
it. -/
def readPlace (s : Scope) (p : Progress) : List String →
    Except Stop (Progress × Option (Verb × List String))
  | [] => .ok (p, none)
  | word :: rest =>
    let verb? := if s.isSome || p.isWaiting then none else Verb.ofName? word
    match verb? with
    | some v => .ok (p, some (v, rest))
    | none =>
      if s.isNone && !p.isWaiting && word == "help" then (helpTopic rest).bind (.error <| .help ·)
      else
        match word.toList with
        | ['-', '-'] =>
          match rest with
          | [] => .ok (p, none)
          | next :: _ => .error (.fault (stray s true next))
        | '-' :: '-' :: name => do readPlace s (← readLong s p name) rest
        | '-' :: c :: letters => do readPlace s (← readLetters s p (c :: letters)) rest
        | _ =>
          match p.pending with
          | some (k, none) => readPlace s { p with pending := some (k, some word) } rest
          | _ => .error (.fault (stray s false word))

/-- The command of a name, with its options. -/
def orderOf (v : Verb) (p : Progress) : Except Stop Order :=
  match v with
  | .init => .ok (.init (p.value? .writeSample).isSome)
  | .review operation =>
    match p.value? .file with
    | none => .error (.fault .missingOption)
    | some locator =>
      .ok (.review ⟨operation, locator, p.value? .language, p.value? .toLanguage, p.value? .model,
        p.value? .output⟩)

/-- Highest verbosity that is told apart. -/
def maxVerbosity : Nat := 255

/-- What the options before and behind a command say together: of an option in both places the one
behind the command counts. -/
def lineOf (outer inner : Progress) (order : Option Order) : Line :=
  ⟨(inner.value? .configPath).orElse fun _ => outer.value? .configPath,
    (inner.value? .waitOnRateLimit).isSome || (outer.value? .waitOnRateLimit).isSome,
    min maxVerbosity
      (if inner.count .verbose = 0 then outer.count .verbose else inner.count .verbose),
    order⟩

/-- Read a command line. -/
def parse (words : List String) : Except Stop Line := do
  let (outer, rest) ← readPlace none .empty words
  match rest with
  | none =>
    let outer ← outer.resolve
    .ok (lineOf outer .empty none)
  | some (v, rest) =>
    let (inner, _) ← readPlace (some v) .empty rest
    let inner ← inner.resolve
    let order ← orderOf v inner
    let outer ← outer.resolve
    .ok (lineOf outer inner (some order))

end CommandLine

end CodeReview

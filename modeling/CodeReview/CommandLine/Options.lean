import CodeReview.Operation

/-!
# The options of the command line

Which options there are, how they are written, and where they may stand.  Three options are
understood everywhere; the others belong to a command.
-/

namespace CodeReview.CommandLine

/-- An option. -/
inductive Key where
  | configPath
  | writeSample
  | file
  | language
  | waitOnRateLimit
  | toLanguage
  | verbose
  | model
  | output
  | help
  deriving Repr, DecidableEq

/-- What an option takes. -/
inductive Kind where
  /-- Nothing. -/
  | switch
  /-- Nothing; it may be given repeatedly. -/
  | count
  /-- Any text. -/
  | text
  /-- A path, which is not empty. -/
  | path
  /-- Nothing; it asks for help. -/
  | help
  deriving Repr, DecidableEq

namespace Key

/-- What the option takes. -/
def kind : Key → Kind
  | writeSample | waitOnRateLimit => .switch
  | verbose => .count
  | file | language | toLanguage | model => .text
  | configPath | output => .path
  | help => .help

/-- The option is followed by a value. -/
def takesValue (k : Key) : Bool := k.kind = .text || k.kind = .path

/-- The name after two hyphens. -/
def long : Key → String
  | configPath => "config-path"
  | writeSample => "write-sample"
  | file => "file"
  | language => "language"
  | waitOnRateLimit => "wait-on-rate-limit"
  | toLanguage => "to-language"
  | verbose => "verbose"
  | model => "model"
  | output => "output"
  | help => "help"

/-- A second name after two hyphens. -/
def alias? : Key → Option String
  | language => some "from-language"
  | toLanguage => some "target-language"
  | _ => none

/-- The letter after one hyphen. -/
def letter? : Key → Option Char
  | file => some 'f'
  | language => some 'l'
  | verbose => some 'v'
  | model => some 'm'
  | output => some 'o'
  | help => some 'h'
  | _ => none

/-- What the value is called. -/
def valueName : Key → String
  | configPath => "CONFIG_PATH"
  | file => "FILE"
  | language => "LANGUAGE"
  | toLanguage => "TO_LANGUAGE"
  | model => "MODEL"
  | output => "OUTPUT"
  | _ => ""

/-- What the option is for. -/
def purpose : Key → String
  | configPath => "Path to the configuration file"
  | writeSample => "Write a sample configuration first if none exists at the path"
  | file => "Path to the file or URL containing the code"
  | language => "Programming language of the code (inferred from the extension when omitted)"
  | waitOnRateLimit => "Wait and resubmit when the request quota is exhausted"
  | toLanguage => "Target programming language for conversion"
  | verbose => "Increase log verbosity (-v debug, -vv trace)"
  | model => "Specific model to use instead of the configured default"
  | output => "Output file (overwritten) or existing directory"
  | help => "Print help"

end Key

/-- A command that has a name. -/
inductive Verb where
  | init
  | review (operation : Operation)
  deriving Repr, DecidableEq

namespace Verb

/-- Every command. -/
def all : List Verb := init :: Operation.all.map review

/-- The name of a command. -/
def name : Verb → String
  | init => "init"
  | review o => o.name

/-- The command of exactly this name. -/
def ofName? (name : String) : Option Verb := all.find? (·.name == name)

/-- What the command is for. -/
def purpose : Verb → String
  | init => "Load and validate the configuration file"
  | review .analyze => "Analyze the given code file"
  | review .identifyIssues => "Identify issues in the given code file"
  | review .optimize => "Suggest optimizations for the given code file"
  | review .generateDocumentation => "Generate documentation for the given code file"
  | review .refactor => "Suggest refactoring improvements for the given code file"
  | review .explainAlgorithm => "Explain the algorithm used in the given code file"
  | review .generateTestCases => "Generate test cases for the given code file"
  | review .identifyDesignPatterns => "Identify design patterns used in the given code file"
  | review .convertLanguage => "Convert the given code file to another programming language"
  | review .securityAudit => "Perform a security audit on the given code file"

end Verb

/-- Where options stand: before any command, or behind one. -/
abbrev Scope := Option Verb

namespace Scope

/-- The options understood in a place, in the order of its help. -/
def keys : Scope → List Key
  | none => [.configPath, .waitOnRateLimit, .verbose, .help]
  | some .init => [.configPath, .writeSample, .waitOnRateLimit, .verbose, .help]
  | some (.review _) => [.configPath, .file, .language, .waitOnRateLimit, .toLanguage, .verbose,
      .model, .output, .help]

/-- The option of a name. -/
def named? (s : Scope) (name : String) : Option Key :=
  (keys s).find? fun k => k.long == name || k.alias? == some name

/-- The option of a letter. -/
def lettered? (s : Scope) (c : Char) : Option Key :=
  (keys s).find? fun k => k.letter? == some c

end Scope

end CodeReview.CommandLine

import CodeReview.Config.Check
import CodeReview.Config.Sample
import CodeReview.Config.Toml
import CodeReview.Config.Yaml
import CodeReview.Machine

/-!
# Configuration files

Where the configuration is looked for, in which format it is written, and how it is loaded.  The
format follows from the extension alone: TOML for `.toml` in any letter case, YAML for all else.
-/

namespace CodeReview.Config

open CodeReview.Text

/-- The environment variable that names the configuration file. -/
def pathVariable : String := "REVERSE_ENGINEER_CONFIG_PATH"

/-- The name of the configuration file where none is given. -/
def standardName : String := "config.yaml"

/-- The configuration file in the home directory. -/
def homePath (home : String) : String :=
  Path.join (Path.join home ".reverse-engineer") standardName

/-- The path of the configuration: the one given, else the one in the environment unless that is
blank, else the file in the working directory or the home directory that exists. -/
def location (m : Machine) (given : Option String) : String :=
  match given with
  | some path => path
  | none =>
    match (m.setting? pathVariable).filter (!allBlank ·) with
    | some path => path
    | none =>
      if m.disk.exists? standardName then standardName
      else
        ((((m.setting? "HOME").filter (· ≠ "")).map homePath).filter m.disk.exists?).getD
          standardName

/-- The path names a file in TOML. -/
def isToml (path : String) : Bool :=
  ((Path.extension? path).map lowerAscii) == some "toml"

/-- Read the text of the configuration at a path. -/
def parse (path text : String) : Except Malformed Config :=
  if isToml path then (parseToml text).mapError (⟨.toml, text, ·⟩)
  else (parseYaml text).mapError (⟨.yaml, text, ·⟩)

/-- Read the configuration at a path, without checking it. -/
def read (path : String) : Command Config := do
  let m ← get
  if !m.disk.exists? path then throw (.configurationFile path "file not found")
  Act.log .info ("📋 Loading config from: " ++ path)
  let text ← Command.orFail (do pure ((← get).disk.readText path))
    fun e => .configurationFile path e.message
  match parse path text with
  | .ok c => pure c.normalize
  | .error e => throw (.configurationFile path (m.wording e))

/-- Read the configuration at a path; it has to keep all rules. -/
def load (path : String) : Command Config := do
  let c ← read path
  if c.problems.isEmpty then pure c else throw (invalid path c.problems)

/-- Write the sample to a path at which nothing is yet, and say whether it was written. -/
def createSample (path : String) : Command Bool := do
  if (← get).disk.exists? path then pure false
  else
    Command.orFail (modifyGet fun m =>
        let (result, disk) := m.disk.store path sample
        (result, { m with disk }))
      fun e => .configurationFile path e.message
    Act.log .info ("✅ Created sample config at: " ++ path)
    pure true

/-- Problems and warnings of a configuration. -/
structure Verdict where
  problems : List String
  warnings : List String
  deriving Repr, DecidableEq

/-- Check a configuration in an environment. -/
def verdict (m : Machine) (c : Config) : Verdict :=
  ⟨c.problems, c.keyWarnings m.setting?⟩

/-- The configuration keeps all rules. -/
def Verdict.isValid (v : Verdict) : Bool := v.problems.isEmpty

/-- Write a verdict to the log. -/
def Verdict.report (v : Verdict) : Act Unit := do
  if v.isValid then Act.log .info "✅ Validation passed"
  else Act.log .error ("❌ Validation failed with " ++ toString v.problems.length ++ " errors")
  if !v.warnings.isEmpty then
    Act.log .warn ("⚠️ " ++ toString v.warnings.length ++ " warnings found")
  v.problems.forM fun s => Act.log .error ("   ❌ " ++ s)
  v.warnings.forM fun s => Act.log .warn ("   ⚠️ " ++ s)

end CodeReview.Config

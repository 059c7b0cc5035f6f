import CodeReview.CommandLine.Options

/-!
# Help texts

A help text says what a command is for, how it is written, and what may stand behind it.
-/

namespace CodeReview.CommandLine

/-- The name of the program. -/
def programName : String := "reverse-engineer"

/-- What help can be asked about. -/
inductive Topic where
  | program
  | verb (v : Verb)
  /-- Help itself. -/
  | help
  deriving Repr, DecidableEq

/-- Entries in two columns, indented by two spaces. -/
def columns (entries : List (String × String)) : String :=
  let width := (entries.map (·.1.length)).foldl max 0
  String.join (entries.map fun e =>
    "  " ++ e.1 ++ String.ofList (List.replicate (width - e.1.length) ' ') ++ "  " ++ e.2 ++ "\n")

/-- How an option is written. -/
def Key.form (k : Key) : String :=
  (match k.letter? with
    | some c => "-" ++ String.singleton c ++ ", "
    | none => "    ") ++
    "--" ++ k.long ++
    (match k.kind with
      | .text | .path => " <" ++ k.valueName ++ ">"
      | .count => "..."
      | .switch | .help => "")

/-- The options of a place. -/
def optionList (s : Scope) : String :=
  "Options:\n" ++ columns (s.keys.map fun k => (k.form, k.purpose))

/-- What `help` is for. -/
def helpPurpose : String := "Print this message or the help of the given subcommand(s)"

/-- The opening of a help text. -/
def opening (purpose usage : String) : String :=
  purpose ++ "\n\nUsage: " ++ programName ++ " " ++ usage ++ "\n\n"

/-- The help text on a topic. -/
def Topic.text : Topic → String
  | program =>
    opening "AI-powered code analysis tool" "[OPTIONS] [COMMAND]" ++ "Commands:\n" ++
      columns (Verb.all.map (fun v => (v.name, v.purpose)) ++ [("help", helpPurpose)]) ++ "\n" ++
      optionList none
  | verb v =>
    let required := match v with
      | .init => ""
      | .review _ => " --file <FILE>"
    opening v.purpose (v.name ++ " [OPTIONS]" ++ required) ++ optionList (some v)
  | help =>
    opening helpPurpose "help [COMMAND]..." ++ "Arguments:\n" ++
      columns [("[COMMAND]...", "Print help for the subcommand(s)")]

end CodeReview.CommandLine

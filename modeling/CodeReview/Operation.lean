import CodeReview.Text.Blank

/-!
# Review operations

The ten tasks that can be given to a model, with the names they go by on the command line, in
file names and in progress messages.
-/

namespace CodeReview

open CodeReview.Text

/-- A task on source code that can be given to a model. -/
inductive Operation where
  | analyze
  | identifyIssues
  | optimize
  | generateDocumentation
  | refactor
  | explainAlgorithm
  | generateTestCases
  | identifyDesignPatterns
  | convertLanguage
  | securityAudit
  deriving Repr, DecidableEq

namespace Operation

/-- Every operation, in the order of the command list. -/
def all : List Operation :=
  [analyze, identifyIssues, optimize, generateDocumentation, refactor, explainAlgorithm,
    generateTestCases, identifyDesignPatterns, convertLanguage, securityAudit]

/-- The name on the command line. -/
def name : Operation → String
  | analyze => "analyze"
  | identifyIssues => "identify-issues"
  | optimize => "optimize"
  | generateDocumentation => "generate-documentation"
  | refactor => "refactor"
  | explainAlgorithm => "explain-algorithm"
  | generateTestCases => "generate-test-cases"
  | identifyDesignPatterns => "identify-design-patterns"
  | convertLanguage => "convert-language"
  | securityAudit => "security-audit"

/-- The name as one identifier, used in technical details. -/
def identifier : Operation → String
  | analyze => "Analyze"
  | identifyIssues => "IdentifyIssues"
  | optimize => "Optimize"
  | generateDocumentation => "GenerateDocumentation"
  | refactor => "Refactor"
  | explainAlgorithm => "ExplainAlgorithm"
  | generateTestCases => "GenerateTestCases"
  | identifyDesignPatterns => "IdentifyDesignPatterns"
  | convertLanguage => "ConvertLanguage"
  | securityAudit => "SecurityAudit"

/-- The sign shown before a progress message. -/
def emoji : Operation → String
  | analyze => "🔍"
  | identifyIssues => "🐛"
  | optimize => "⚡"
  | generateDocumentation => "📚"
  | refactor => "🔧"
  | explainAlgorithm => "🧠"
  | generateTestCases => "🧪"
  | identifyDesignPatterns => "🧩"
  | convertLanguage => "🔄"
  | securityAudit => "🔒"

/-- Only conversion needs a target language. -/
def needsTarget : Operation → Bool
  | convertLanguage => true
  | _ => false

/-- Write an underscore for each hyphen. -/
def underscored (s : String) : String :=
  String.ofList (s.toList.map fun c => if c = '-' then '_' else c)

/-- Write a hyphen for each underscore. -/
def hyphenated (s : String) : String :=
  String.ofList (s.toList.map fun c => if c = '_' then '-' else c)

/-- The name as it stands in the names of generated files. -/
def fileTag (o : Operation) : String :=
  underscored o.name

/-- The operation of exactly this name. -/
def ofName? (name : String) : Option Operation :=
  all.find? (·.name == name)

/-- The operation meant by a typed name: blank ends, letter case and the choice between hyphen
and underscore do not matter. -/
def ofText? (s : String) : Option Operation :=
  ofName? (hyphenated (lowerAscii (trim s)))

end Operation

end CodeReview

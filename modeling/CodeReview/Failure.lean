import CodeReview.Operation
import CodeReview.Duration
import CodeReview.Prompt.Template
import CodeReview.Text.Quoted

/-!
# Failures of commands

Everything that can end a command without success, with its wording.  A failure has a one-line
message, a message for the user with a hint, a severity, an exit code, and technical details that
name all its parts.
-/

namespace CodeReview

open CodeReview.Text CodeReview.Prompt

/-- Why a command did not succeed. -/
inductive Failure where
  /-- The configuration does not allow what was asked. -/
  | configuration (message : String) (field suggestion : Option String)
  /-- The configuration file cannot be read or written, or is malformed. -/
  | configurationFile (path reason : String)
  /-- An operation lacks a parameter. -/
  | missingParameter (operation : Operation) (parameter : Parameter)
  /-- The source is not readable text. -/
  | sourceRead (locator reason : String)
  /-- The source was not served. -/
  | sourceFetch (locator : String) (status : Option Nat) (reason : String)
  /-- The quota is used up. -/
  | rateLimited (retryAfter : Duration)
  /-- The model gave no text. -/
  | modelInvocation (model provider reason : String)
  /-- The result cannot be delivered. -/
  | output (path reason : String)
  /-- The input is not understood. -/
  | userInput (input reason : String)
  /-- The user interrupted the command. -/
  | cancelled
  deriving Repr, DecidableEq

/-- How grave a failure is. -/
inductive Severity where
  | low
  | medium
  | high
  deriving Repr, DecidableEq

namespace Severity

/-- The name in technical details. -/
def name : Severity → String
  | low => "LOW"
  | medium => "MEDIUM"
  | high => "HIGH"

/-- The sign shown before a message. -/
def emoji : Severity → String
  | low => "🟢"
  | medium => "🟡"
  | high => "🟠"

end Severity

namespace Failure

/-- A fault of rendering as the failure of an operation. -/
def ofRenderFault (operation : Operation) : RenderFault → Failure
  | .missing parameter => missingParameter operation parameter
  | .unresolved =>
    configuration ("Template for '" ++ operation.name ++ "' has an unresolved placeholder")
      (some "prompt template") none

/-- The name of the kind of failure. -/
def kind : Failure → String
  | configuration .. => "ConfigurationError"
  | configurationFile .. => "ConfigurationFileError"
  | missingParameter .. => "MissingParameter"
  | sourceRead .. => "SourceReadError"
  | sourceFetch .. => "SourceFetchError"
  | rateLimited .. => "RateLimited"
  | modelInvocation .. => "ModelInvocationError"
  | output .. => "OutputError"
  | userInput .. => "UserInputError"
  | cancelled => "Cancelled"

/-- The message, without hints. -/
def message : Failure → String
  | configuration message _ _ => "Configuration Error: " ++ message
  | configurationFile path reason => "Configuration file error at '" ++ path ++ "': " ++ reason
  | missingParameter operation parameter =>
    "Missing parameter '" ++ parameter.name ++ "' for " ++ operation.name
  | sourceRead locator reason => "Failed to read source '" ++ locator ++ "': " ++ reason
  | sourceFetch locator _ reason => "Failed to fetch source '" ++ locator ++ "': " ++ reason
  | rateLimited retryAfter => "Rate limit exceeded, retry after " ++ retryAfter.seconds ++ "s"
  | modelInvocation model provider reason =>
    "Model '" ++ model ++ "' (" ++ provider ++ ") failed: " ++ reason
  | output path reason => "Failed to write output '" ++ path ++ "': " ++ reason
  | userInput input reason => "Invalid input '" ++ input ++ "': " ++ reason
  | cancelled => "Command cancelled"

/-- Whether the same command may succeed when it is tried again. -/
def recoverable : Failure → Bool
  | rateLimited .. | sourceFetch .. | modelInvocation .. | userInput .. | cancelled => true
  | _ => false

/-- How grave the failure is. -/
def severity : Failure → Severity
  | configurationFile .. | output .. => .high
  | configuration .. | sourceRead .. | sourceFetch .. | modelInvocation .. => .medium
  | missingParameter .. | rateLimited .. | userInput .. | cancelled => .low

/-- Exit code of a command that ended so. -/
def exitCode : Failure → Nat
  | configuration .. | configurationFile .. | missingParameter .. | userInput .. => 2
  | sourceRead .. | sourceFetch .. => 3
  | rateLimited .. => 4
  | modelInvocation .. => 5
  | output .. => 6
  | cancelled => 130

/-- A hint on a line of its own. -/
def hint (text : String) : String := "\n💡 " ++ text

/-- The command-line option that supplies a parameter. -/
def optionFor : Parameter → String
  | .targetLanguage => "--to-language"
  | .sourceLanguage => "--language"

/-- The message with a hint for the user. -/
def userMessage (f : Failure) : String :=
  match f with
  | configuration _ field suggestion =>
    f.message ++ (field.elim "" fun x => " (field: " ++ x ++ ")") ++
      suggestion.elim "" fun s => hint ("Suggestion: " ++ s)
  | configurationFile .. =>
    f.message ++ hint ("Check the file path, permissions and syntax, or run " ++
      "'reverse-engineer init --write-sample'")
  | missingParameter operation parameter =>
    f.message ++ hint ("Pass " ++ optionFor parameter ++ " when running '" ++ operation.name ++ "'")
  | sourceRead .. => f.message ++ hint "Check that the file exists and is readable text"
  | sourceFetch _ status _ =>
    f.message ++ (status.elim "" fun n => " (Status: " ++ toString n ++ ")") ++
      hint "Check the URL and your internet connection"
  | rateLimited retryAfter =>
    "Rate limit exceeded. Please wait " ++ retryAfter.seconds ++ " seconds before trying again." ++
      hint "Pass --wait-on-rate-limit to wait automatically"
  | modelInvocation .. => f.message ++ hint "Check your API key, quota and model name"
  | output .. => f.message ++ hint "Check the output path and permissions"
  | userInput .. => f.message ++ hint "Type '--help' for the command syntax"
  | cancelled => "Command cancelled by user"

/-- The message as it stands in the console of a session. -/
def inlineMessage (f : Failure) : String := "❌ " ++ f.userMessage

/-- What is told on standard error when a command ends so. -/
def complaint (f : Failure) : String :=
  f.severity.emoji ++ " " ++ f.userMessage ++ "\n" ++
    if f.recoverable then "🔄 This error is recoverable - you can retry the operation\n" else ""

/-- A kind with its named parts. -/
def parts (kind : String) (fields : List (String × String)) : String :=
  kind ++ " \x7b " ++ ", ".intercalate (fields.map fun p => p.1 ++ ": " ++ p.2) ++ " \x7d"

/-- Technical details: the kind and every part. -/
def details (f : Failure) : String :=
  match f with
  | configuration message field suggestion =>
    parts f.kind [("message", quoted message), ("field", quotedOption field),
      ("suggestion", quotedOption suggestion)]
  | configurationFile path reason => parts f.kind [("path", quoted path), ("reason", quoted reason)]
  | missingParameter operation parameter =>
    parts f.kind [("operation", operation.identifier), ("field", quoted parameter.name)]
  | sourceRead locator reason =>
    parts f.kind [("locator", quoted locator), ("reason", quoted reason)]
  | sourceFetch locator status reason =>
    parts f.kind [("locator", quoted locator),
      ("status_code", status.elim "None" fun n => "Some(" ++ toString n ++ ")"),
      ("reason", quoted reason)]
  | rateLimited retryAfter => parts f.kind [("retry_after", retryAfter.detail)]
  | modelInvocation model provider reason =>
    parts f.kind [("model", quoted model), ("provider", quoted provider),
      ("reason", quoted reason)]
  | output path reason => parts f.kind [("path", quoted path), ("reason", quoted reason)]
  | userInput input reason => parts f.kind [("input", quoted input), ("reason", quoted reason)]
  | cancelled => f.kind

end Failure

end CodeReview

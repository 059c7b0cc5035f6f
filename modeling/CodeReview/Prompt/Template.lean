import CodeReview.Operation
import CodeReview.Text.Replace
import CodeReview.Text.Blank

/-!
# Instruction templates

Each operation has a template: a preamble that names the task and guidance for the answer.  Both
may hold the placeholders `{language}` and `{target_language}`.

`Template.render?` puts names of languages in their place, first the source language, then, where
the operation needs one, the target language.  A prompt that still holds placeholder text after
that is refused, whether the text came from the template or from a name.
-/

namespace CodeReview.Prompt

open CodeReview.Text

/-- An instruction text in two parts. -/
structure Template where
  preamble : String
  guidance : String
  deriving Repr, DecidableEq

/-- Stands for the source language. -/
def languageMark : String := "\x7blanguage\x7d"

/-- Stands for the target language. -/
def targetMark : String := "\x7btarget_language\x7d"

/-- The parameters that a template may need. -/
inductive Parameter where
  | sourceLanguage
  | targetLanguage
  deriving Repr, DecidableEq

/-- The name under which a parameter is reported. -/
def Parameter.name : Parameter → String
  | sourceLanguage => "source_language"
  | targetLanguage => "target_language"

/-- Why no prompt is made. -/
inductive RenderFault where
  /-- A parameter is absent or blank. -/
  | missing (parameter : Parameter)
  /-- Placeholder text is left. -/
  | unresolved
  deriving Repr, DecidableEq

namespace Template

/-- The template of an operation. -/
def ofOperation : Operation → Template
  | .analyze =>
    ⟨"Analyze the following source code written in \x7blanguage\x7d.",
      "Provide a detailed analysis of potential issues along with specific recommendations " ++
      "for fixing them. Include a relevant code snippet for each recommendation to " ++
      "demonstrate the solution. Do not repeat the original source code in your response; " ++
      "focus on advice, solutions and examples so the developer can make the corrections " ++
      "independently."⟩
  | .identifyIssues =>
    ⟨"Identify potential issues, vulnerabilities, or areas for improvement in the " ++
      "following \x7blanguage\x7d code.",
      "List each finding with its location, why it is a problem, and a suggested fix."⟩
  | .optimize =>
    ⟨"Suggest improvements to optimize performance and security for the following " ++
      "\x7blanguage\x7d code.",
      "For each suggestion, explain the expected impact and show the optimized code."⟩
  | .generateDocumentation =>
    ⟨"Generate comprehensive documentation for the following \x7blanguage\x7d code.",
      "Include function/method descriptions, parameters, return values, and overall " ++
      "purpose."⟩
  | .refactor =>
    ⟨"Refactor the following \x7blanguage\x7d code.",
      "Please refactor the code to improve readability, maintainability, and adherence to " ++
      "best practices. Apply the following where they fit:\n" ++
      "\n" ++
      "- SOLID principles (SRP, OCP, LSP, ISP, DIP).\n" ++
      "- Clean code: meaningful names, short focused functions, consistent formatting.\n" ++
      "- DRY: remove duplication through abstraction and modularity.\n" ++
      "- KISS and YAGNI: prefer simple solutions and avoid unnecessary features.\n" ++
      "- Separation of concerns and appropriate design patterns.\n" ++
      "- Security and performance best practices.\n" ++
      "- Clear documentation for the code and any APIs involved.\n" ++
      "\n" ++
      "Explain your design choices and show the refactored code."⟩
  | .explainAlgorithm =>
    ⟨"Explain the algorithm(s) used in the following \x7blanguage\x7d code in detail.",
      "Describe the approach, time complexity, and space complexity if applicable."⟩
  | .generateTestCases =>
    ⟨"Generate comprehensive test cases for the following \x7blanguage\x7d code.",
      "Include normal cases, edge cases, and potential error scenarios, using the " ++
      "idiomatic test framework for \x7blanguage\x7d."⟩
  | .identifyDesignPatterns =>
    ⟨"Identify and explain any design patterns used in the following \x7blanguage\x7d " ++
      "code.",
      "Describe how each pattern is implemented and its purpose in the code."⟩
  | .convertLanguage =>
    ⟨"Convert the following \x7blanguage\x7d code to \x7btarget_language\x7d.",
      "Ensure that the functionality remains the same and adhere to the best practices of " ++
      "\x7btarget_language\x7d. Return the complete converted program and note any " ++
      "behavior that cannot be translated directly."⟩
  | .securityAudit =>
    ⟨"Perform a comprehensive security audit on the following \x7blanguage\x7d code.",
      "Identify potential security vulnerabilities, suggest fixes, and explain the " ++
      "implications of each issue. Rate each finding as critical, high, medium or low."⟩

/-- The whole text, with its placeholders. -/
def text (t : Template) : String :=
  t.preamble ++ "\n\n" ++ t.guidance

end Template

/-- A parameter's value without blank ends, if it is given and not blank. -/
def given? (value : Option String) : Option String :=
  (value.map trim).filter (· ≠ "")

/-- Whether placeholder text is left in a prompt. -/
def hasMark (prompt : String) : Bool :=
  contains prompt languageMark || contains prompt targetMark

/-- The prompt of an operation on code in a source language. -/
def render (operation : Operation) (source target : Option String) :
    Except RenderFault String := do
  let some source := given? source | throw (.missing .sourceLanguage)
  let prompt := replace (Template.ofOperation operation).text languageMark source
  let prompt ← if operation.needsTarget then
      match given? target with
      | some target => pure (replace prompt targetMark target)
      | none => throw (.missing .targetLanguage)
    else pure prompt
  if hasMark prompt then throw .unresolved
  pure prompt

end CodeReview.Prompt

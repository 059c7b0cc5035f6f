import CodeReview.CommandLine.Basic
import CodeReview.Config.Check
import CodeReview.Source.Language
import CodeReview.Source.Reading

/-!
# Preparing reviews

Everything that a review needs before a model is asked: the model, the text of the source, its
language and the prompt.  The first of these that is not to be had is reported.
-/

namespace CodeReview

/-- A review that is ready to be submitted. -/
structure Prepared where
  operation : Operation
  sourceLanguage : String
  targetLanguage : Option String
  source : String
  model : Model
  prompt : String
  deriving Repr, DecidableEq

namespace Prepared

/-- The question to the model. -/
def question (p : Prepared) : Question := ⟨p.prompt, p.source, p.model⟩

end Prepared

namespace Invocation

/-- The language of the source: the one given, else the one that the name of the source shows. -/
def sourceLanguage (i : Invocation) : Command String := do
  match Prompt.given? i.language with
  | some language => pure language
  | none =>
    match Source.language? i.locator with
    | some language => do
      Act.log .info ("🔤 Detected language: " ++ language)
      pure language
    | none => throw (.missingParameter i.operation .sourceLanguage)

/-- Prepare a review. -/
def prepare (i : Invocation) (c : Config) : Command Prepared := do
  let model ← c.resolve i.model
  let source ← Source.resolve c.requestTimeout i.locator
  let language ← i.sourceLanguage
  let prompt ← (Prompt.render i.operation (some language) i.targetLanguage).mapError
    (Failure.ofRenderFault i.operation)
  pure ⟨i.operation, language, i.targetLanguage, source, model, prompt⟩

end Invocation

end CodeReview

import CodeReview.Json.Record
import CodeReview.Model.Request
import CodeReview.Proofs.Json.RoundTrip
import CodeReview.Proofs.Number.Numeral
import CodeReview.Proofs.Prompt.Fence

/-!
# What the body of a request says

A body is written as JSON text.  `Dialect.asked?` reads that text back by the names of the fields,
as a service does that knows the format, and gives what the three formats have in common as one
record.  `Asked.recovered?` goes on to what the message was made of.

* `Dialect.asked?_body`: what is read back is what was asked, with the same message in all formats.
* `Dialect.write_body_eq_iff`: two bodies are the same text exactly where they say the same and
  give the same temperature.

`body_readable` puts the two together.  Nothing is assumed of prompt, source text or model: a
temperature that has no JSON form is written as null, and every other one as a numeral.
-/

namespace CodeReview

open CodeReview.Json CodeReview.Prompt CodeReview.Text

/-! ### Whole numbers -/

namespace Json

/-- A whole number of any size; a word is one below its bound. -/
def asNat? : Value → Option ℕ
  | .number t =>
    if t.toList.all Char.isDigit then some (Number.ofDigits t.toList) else none
  | _ => none

/-- A natural number is read back from its numeral. -/
lemma asNat?_nat (n : ℕ) : asNat? (.nat n) = some n := by
  have hdigits : (Nat.toDigits 10 n).all Char.isDigit = true := Number.all_isDigit_digits n
  have hvalue : Number.ofDigits (Nat.toDigits 10 n) = n := Nat.ofDigitChars_ten_toDigits
  rw [Value.nat, asNat?, Nat.toString_eq_ofList_toDigits, String.toList_ofList, if_pos hdigits,
    hvalue]

end Json

/-! ### Reading a body -/

/-- What a request asks. -/
structure Asked where
  /-- The model, in the formats that name it in the body. -/
  model : Option String
  system : String
  message : String
  maxTokens : ℕ
  deriving Repr, DecidableEq

namespace Asked

/-- A role and what is said in it. -/
def saying? (v : Value) : Option (String × String) := do
  match ← fields? ["role", "content"] v with
  | [role, content] => some (← required? asText? role, ← required? asText? content)
  | _ => none

/-- The text of a part. -/
def part? (v : Value) : Option String := do
  match ← fields? ["text"] v with
  | [text] => required? asText? text
  | _ => none

/-- A role, where one is given, and the texts of the parts that are said in it. -/
def parts? (v : Value) : Option (Option String × List String) := do
  match ← fields? ["role", "parts"] v with
  | [role, parts] =>
    some (← orElse? none (asOptional? asText?) role, ← required? (asList? part?) parts)
  | _ => none

/-- The limit on tokens, among the settings of an answer. -/
def limit? (v : Value) : Option ℕ := do
  match ← fields? ["temperature", "maxOutputTokens", "candidateCount"] v with
  | [_, limit, _] => required? asNat? limit
  | _ => none

/-- What is asked by a system message and a user message. -/
def ofCompletions? (v : Value) : Option Asked := do
  match ← fields? ["model", "messages", "max_tokens", "temperature", "stream"] v with
  | [model, sayings, limit, _, _] =>
    match ← required? (asList? saying?) sayings with
    | [("system", system), ("user", message)] =>
      some ⟨some (← required? asText? model), system, message, ← required? asNat? limit⟩
    | _ => none
  | _ => none

/-- What is asked by a system text and a user message. -/
def ofMessages? (v : Value) : Option Asked := do
  match ← fields? ["model", "system", "max_tokens", "temperature", "messages"] v with
  | [model, system, limit, _, sayings] =>
    match ← required? (asList? saying?) sayings with
    | [("user", message)] =>
      some ⟨some (← required? asText? model), ← required? asText? system, message,
        ← required? asNat? limit⟩
    | _ => none
  | _ => none

/-- What is asked by the parts of an instruction and of a content. -/
def ofContents? (v : Value) : Option Asked := do
  match ← fields? ["contents", "systemInstruction", "generationConfig"] v with
  | [contents, instruction, settings] =>
    match ← required? (asList? parts?) contents, ← required? parts? instruction with
    | [(some "user", [message])], (none, [system]) =>
      some ⟨none, system, message, ← required? limit? settings⟩
    | _, _ => none
  | _ => none

end Asked

namespace Dialect

/-- What the text of a body asks. -/
def asked? (d : Dialect) (text : String) : Option Asked := do
  let v ← Json.parse? text
  match d with
  | completions => Asked.ofCompletions? v
  | messages => Asked.ofMessages? v
  | contents => Asked.ofContents? v

/-- The name of the model as far as a body has it. -/
def named? (d : Dialect) (m : Model) : Option String :=
  match d with
  | completions | messages => some m.name
  | contents => none

variable {prompt source : String} {m : Model}

/-! ### The parts of a body -/

/-- Numbers are written as numerals. -/
lemma isSound_numberValue (x : Number.Single) : (numberValue x).isSound = true := by
  unfold numberValue
  split
  · rename_i t ht
    exact Number.Single.isNumber_jsonText ht
  · rfl

/-- Natural numbers are written as numerals. -/
lemma isSound_nat (n : ℕ) : (Value.nat n).isSound = true := Number.isNumber_toString n

/-- Every body can be read back as JSON. -/
lemma isSound_body (d : Dialect) (prompt source : String) (m : Model) :
    (d.body prompt source m).isSound = true := by
  cases d with
  | completions =>
      simp [body, said, Value.record, Value.text, Value.isSound, Value.itemsSound,
        Value.membersSound, isSound_numberValue, isSound_nat]
  | messages =>
      simp [body, said, Value.record, Value.text, Value.isSound, Value.itemsSound,
        Value.membersSound, isSound_numberValue, isSound_nat]
  | contents =>
      simp [body, partsOf, Value.record, Value.text, Value.isSound, Value.itemsSound,
        Value.membersSound, isSound_numberValue, isSound_nat]

/-- **What is read back from a body is what was asked.** -/
lemma asked?_body (d : Dialect) (prompt source : String) (m : Model) :
    d.asked? (d.body prompt source m).write =
      some ⟨d.named? m, systemPrompt, message prompt source, m.maxTokens⟩ := by
  -- all but the number is found by following the names of the fields
  have hfields : d.asked? (d.body prompt source m).write =
      (asNat? (.nat m.maxTokens)).bind fun limit =>
        some ⟨d.named? m, systemPrompt, message prompt source, limit⟩ := by
    rw [asked?, parse?_write _ (isSound_body d prompt source m)]
    cases d with
    | completions => rfl
    | messages => rfl
    | contents => rfl
  rw [hfields, asNat?_nat, Option.bind_some]

/-! ### Telling bodies apart -/

variable {prompt' source' : String} {m' : Model}

/-- The temperature stands in a body as it is written. -/
lemma numberValue_eq_of_body_eq {d : Dialect}
    (h : d.body prompt' source' m' = d.body prompt source m) :
    numberValue m'.temperature = numberValue m.temperature := by
  cases d with
  | completions =>
      simp only [body, Value.record, List.map_cons, Value.object.injEq, List.cons.injEq,
        Prod.mk.injEq, true_and] at h
      exact h.2.2.2.1
  | messages =>
      simp only [body, Value.record, List.map_cons, Value.object.injEq, List.cons.injEq,
        Prod.mk.injEq, true_and] at h
      exact h.2.2.1
  | contents =>
      simp only [body, Value.record, List.map_cons, Value.object.injEq, List.cons.injEq,
        Prod.mk.injEq, true_and] at h
      exact h.2.1.1

/-- **Bodies are the same text exactly where they ask the same** at the same temperature. -/
lemma write_body_eq_iff {d : Dialect} :
    (d.body prompt' source' m').write = (d.body prompt source m).write ↔
      (trimEnd prompt' = trimEnd prompt ∧ trimEndOf '\n' source' = trimEndOf '\n' source) ∧
        m'.maxTokens = m.maxTokens ∧ d.named? m' = d.named? m ∧
        numberValue m'.temperature = numberValue m.temperature := by
  rw [write_inj (isSound_body d prompt' source' m') (isSound_body d prompt source m)]
  constructor
  · intro h
    have hasked := asked?_body d prompt' source' m'
    rw [h, asked?_body, Option.some.injEq, Asked.mk.injEq] at hasked
    obtain ⟨hmodel, -, hmessage, hlimit⟩ := hasked
    exact ⟨message_eq_iff.mp hmessage.symm, hlimit.symm, hmodel.symm, numberValue_eq_of_body_eq h⟩
  · rintro ⟨hmessage, hlimit, hmodel, htemperature⟩
    have hmessage := message_eq_iff.mpr hmessage
    cases d with
    | completions =>
        have hname := Option.some.inj hmodel
        simp only [body, hmessage, hlimit, hname, htemperature]
    | messages =>
        have hname := Option.some.inj hmodel
        simp only [body, hmessage, hlimit, hname, htemperature]
    | contents => simp only [body, hmessage, hlimit, htemperature]

/-- **A body says what was asked, and nothing of it is lost.**  Reading the text of a body back gives
the limit on tokens, the system prompt, the name of the model where the format has it there, and the
user message, which is the same in all formats.  From the body alone the instruction is recovered
without blanks at its end, and the source text without line feeds at its end.  Two bodies are the
same text only where all these are the same, and the temperature as it is written. -/
theorem body_readable (d : Dialect) (prompt source : String) (m : Model) :
    d.asked? (d.body prompt source m).write =
      some ⟨d.named? m, systemPrompt, message prompt source, m.maxTokens⟩ ∧
    ((d.asked? (d.body prompt source m).write).bind fun a => Prompt.read? a.message) =
      some (trimEnd prompt, trimEndOf '\n' source) ∧
    ∀ (prompt' source' : String) (m' : Model),
      (d.body prompt' source' m').write = (d.body prompt source m).write ↔
        (trimEnd prompt' = trimEnd prompt ∧ trimEndOf '\n' source' = trimEndOf '\n' source) ∧
          m'.maxTokens = m.maxTokens ∧ d.named? m' = d.named? m ∧
          numberValue m'.temperature = numberValue m.temperature := by
  refine ⟨asked?_body d prompt source m, ?_, fun _ _ _ => write_body_eq_iff⟩
  rw [asked?_body, Option.bind_some, read?_message]

end Dialect

end CodeReview

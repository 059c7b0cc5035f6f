import CodeReview.Model.Answer
import CodeReview.Proofs.Json.Record
import Mathlib.Data.List.ReduceOption

/-!
# The formats of an answer

`Dialect.Carries` says which texts an answer carries in each of the three formats, part by part and
without reading it: where the format has an optional part it may be missing, where it has a list
there may be any number of items, and other keys may stand in every object.  An answer that carries
texts is read, and its text is theirs put together (`answer?_of_carries`), so that nothing of them
is cut, trimmed or moved, and nothing that stands between them counts.
-/

namespace CodeReview

open CodeReview.Json CodeReview.Text

namespace Answer

/-! ### The parts of an answer -/

/-- Two counts of tokens under their names. -/
def IsUsage (asked answered : String) (v : Value) (usage : ℕ × ℕ) : Prop :=
  usage.1 < 2 ^ 32 ∧ usage.2 < 2 ^ 32 ∧
    Gives [(asked, some (.nat usage.1)), (answered, some (.nat usage.2))] v

/-- A choice with a message that has the text as its content. -/
def IsChoice (v : Value) (text : String) : Prop :=
  ∃ message reason role stop, Gives [("message", some message), ("finish_reason", reason)] v ∧
    Gives [("role", some (.text role)), ("content", some (.text text))] message ∧
    Optionally IsText reason stop

/-- A block, with its text if it is a text block that has one. -/
inductive IsBlock (v : Value) : Option String → Prop
  | text {s : String} : Gives [("type", some (.text "text")), ("text", some (.text s))] v →
      IsBlock v (some s)
  /-- A block of another kind, or a text block without text. -/
  | other {kind : String} {field : Option Value} {own : Option String} :
      Gives [("type", some (.text kind)), ("text", field)] v → Optionally IsText field own →
      (kind ≠ "text" ∨ own = none) → IsBlock v none

/-- A part, with its text if it has one. -/
inductive IsPart (v : Value) : Option String → Prop
  | text {s : String} : Gives [("text", some (.text s))] v → IsPart v (some s)
  | other : Gives [("text", none)] v → IsPart v none

/-- A content whose parts have these texts. -/
def IsContent (v : Value) (texts : List String) : Prop :=
  ∃ role parts speaker pieces, Gives [("role", role), ("parts", parts)] v ∧
    Optionally IsText role speaker ∧ Listed IsPart parts pieces ∧ texts = pieces.reduceOption

/-- A candidate whose content has these texts; without content it has none. -/
def IsCandidate (v : Value) (texts : List String) : Prop :=
  ∃ content reason given stop, Gives [("content", content), ("finishReason", reason)] v ∧
    Optionally IsContent content given ∧ Optionally IsText reason stop ∧ texts = given.getD []

/-! ### Reading the parts -/

section Parts

variable {v : Value} {text : String} {texts : List String}

/-- Counts of tokens are read. -/
lemma usage?_of_isUsage {asked answered : String} {usage : ℕ × ℕ}
    (h : IsUsage asked answered v usage) :
    v ≠ .null ∧ ∃ u, usage? asked answered v = some u ∧ usage = u := by
  obtain ⟨hasked, hanswered, hgives⟩ := h
  refine ⟨hgives.ne_null, usage, ?_, rfl⟩
  have hfields : fields? [asked, answered] v =
      some [some (.nat usage.1), some (.nat usage.2)] := fields?_of_gives hgives
  rw [usage?, hfields]
  simp only [Option.bind_eq_bind, Option.bind_some, required?, asWord?_nat hasked,
    asWord?_nat hanswered]

/-- The text of a choice is read. -/
lemma choice?_of_isChoice (h : IsChoice v text) : ∃ t, choice? v = some t ∧ text = t := by
  obtain ⟨message, reason, role, stop, hgives, hmessage, hreason⟩ := h
  have hfields : fields? ["message", "finish_reason"] v = some [some message, reason] :=
    fields?_of_gives hgives
  have hcontent : messageContent? message = some text := by
    have hsaid : fields? ["role", "content"] message =
        some [some (.text role), some (.text text)] := fields?_of_gives hmessage
    rw [messageContent?, hsaid]
    rfl
  refine ⟨text, ?_, rfl⟩
  rw [choice?, hfields]
  simp only [Option.bind_eq_bind, Option.bind_some, required?, hcontent, hreason.reads_text]

/-- What counts of a block that is read: its text, if its kind is that of a text. -/
lemma block?_of_isBlock {piece : Option String} (h : IsBlock v piece) :
    ∃ b, block? v = some b ∧ piece = if b.1 == "text" then b.2 else none := by
  cases h with
  | @text s hgives =>
      have hfields : fields? ["type", "text"] v = some [some (.text "text"), some (.text s)] :=
        fields?_of_gives hgives
      refine ⟨("text", some s), ?_, rfl⟩
      rw [block?, hfields]
      rfl
  | @other kind field own hgives hfield hnone =>
      have hfields : fields? ["type", "text"] v = some [some (.text kind), field] :=
        fields?_of_gives hgives
      refine ⟨(kind, own), ?_, ?_⟩
      · rw [block?, hfields]
        simp only [Option.bind_eq_bind, Option.bind_some, hfield.reads_text]
        rfl
      · rcases hnone with hkind | rfl
        · rw [if_neg (by simpa using hkind)]
        · rw [ite_self]

/-- The text of a part is read; a part may have none. -/
lemma part?_of_isPart {piece : Option String} (h : IsPart v piece) :
    ∃ t, part? v = some t ∧ piece.getD "" = t := by
  cases h with
  | @text s hgives =>
      have hfields : fields? ["text"] v = some [some (.text s)] := fields?_of_gives hgives
      refine ⟨s, ?_, rfl⟩
      rw [part?, hfields]
      rfl
  | other hgives =>
      have hfields : fields? ["text"] v = some [none] := fields?_of_gives hgives
      refine ⟨"", ?_, rfl⟩
      rw [part?, hfields]
      rfl

/-- A piece without text may as well have an empty one. -/
lemma join_of_forall₂ {pieces : List (Option String)} {ts : List String}
    (h : List.Forall₂ (fun (piece : Option String) t => piece.getD "" = t) pieces ts) :
    String.join ts = String.join pieces.reduceOption := by
  induction h with
  | nil => rfl
  | @cons piece t _ _ hpiece _ ih =>
      subst hpiece
      cases piece with
      | none => simp [String.join_cons, List.reduceOption_cons_of_none, ih]
      | some s => simp [String.join_cons, List.reduceOption_cons_of_some, ih]

/-- The texts of a content are read. -/
lemma content?_of_isContent (h : IsContent v texts) :
    v ≠ .null ∧ ∃ ts, content? v = some ts ∧ String.join texts = String.join ts := by
  obtain ⟨role, parts, speaker, pieces, hgives, hrole, hparts, rfl⟩ := h
  have hfields : fields? ["role", "parts"] v = some [role, parts] := fields?_of_gives hgives
  obtain ⟨ts, hread, hpieces⟩ := hparts.reads part?_of_isPart
  refine ⟨hgives.ne_null, ts, ?_, (join_of_forall₂ hpieces).symm⟩
  rw [content?, hfields]
  simp only [Option.bind_eq_bind, Option.bind_some, hrole.reads_text, hread]

/-- The texts of a candidate are read. -/
lemma candidate?_of_isCandidate (h : IsCandidate v texts) :
    ∃ ts, candidate? v = some ts ∧ String.join texts = String.join ts := by
  obtain ⟨content, reason, given, stop, hgives, hcontent, hreason, rfl⟩ := h
  have hfields : fields? ["content", "finishReason"] v = some [content, reason] :=
    fields?_of_gives hgives
  obtain ⟨found, hread, hfound⟩ := hcontent.reads content?_of_isContent
  refine ⟨found.getD [], ?_, ?_⟩
  · rw [candidate?, hfields]
    simp only [Option.bind_eq_bind, Option.bind_some, hread, hreason.reads_text]
  · cases hfound with
    | none => rfl
    | some hjoin => exact hjoin

/-- The texts of the text blocks that are read are those of the blocks. -/
lemma filterMap_of_forall₂ {pieces : List (Option String)} {blocks : List (String × Option String)}
    (h : List.Forall₂ (fun (piece : Option String) b =>
      piece = if b.1 == "text" then b.2 else none) pieces blocks) :
    (blocks.filter fun b => b.1 == "text").filterMap (·.2) = pieces.reduceOption := by
  induction h with
  | nil => rfl
  | @cons piece b _ _ hpiece _ ih =>
      subst hpiece
      obtain ⟨kind, text⟩ := b
      cases hkind : kind == "text" with
      | false => simp [hkind, List.reduceOption_cons_of_none, ih]
      | true =>
          cases text with
          | none => simp [hkind, List.reduceOption_cons_of_none, ih]
          | some s => simp [hkind, List.reduceOption_cons_of_some, ih]

end Parts

end Answer

namespace Dialect

open Answer

/-- **The texts that an answer carries**: the content of the first choice, the texts of the text
blocks, or those of the parts of the first candidate. -/
inductive Carries : Dialect → Value → List String → Prop
  | completions {v : Value} {model choices usage : Option Value} {name : Option String}
      {counts : Option (ℕ × ℕ)} {contents : List String} :
      Gives [("model", model), ("choices", choices), ("usage", usage)] v →
      Optionally IsText model name → Listed IsChoice choices contents →
      Optionally (IsUsage "prompt_tokens" "completion_tokens") usage counts →
      Carries completions v contents.head?.toList
  | messages {v : Value} {content reason usage : Option Value} {stop : Option String}
      {counts : Option (ℕ × ℕ)} {pieces : List (Option String)} :
      Gives [("content", content), ("stop_reason", reason), ("usage", usage)] v →
      Listed IsBlock content pieces → Optionally IsText reason stop →
      Optionally (IsUsage "input_tokens" "output_tokens") usage counts →
      Carries messages v pieces.reduceOption
  | contents {v : Value} {candidates : Option Value} {all : List (List String)} :
      Gives [("candidates", candidates)] v → Listed IsCandidate candidates all →
      Carries contents v (all.headD [])

/-- **An answer that carries texts is read as these texts put together.** -/
theorem answer?_of_carries {d : Dialect} {v : Value} {texts : List String}
    (h : d.Carries v texts) : ∃ a, d.answer? v = some a ∧ a.text = String.join texts := by
  cases h with
  | @completions _ model choices usage name counts contents hgives hmodel hchoices husage =>
      have hfields : fields? ["model", "choices", "usage"] v = some [model, choices, usage] :=
        fields?_of_gives hgives
      obtain ⟨ts, hread, hcontents⟩ := hchoices.reads choice?_of_isChoice
      obtain rfl : contents = ts := List.forall₂_eq_eq_eq ▸ hcontents
      obtain ⟨u, husage, -⟩ := husage.reads usage?_of_isUsage
      refine ⟨⟨contents.headD "", u, false⟩, ?_, ?_⟩
      · rw [answer?, ofChoices?, hfields]
        simp only [Option.bind_eq_bind, Option.bind_some, hmodel.reads_text, hread, husage]
      · cases contents with
        | nil => rfl
        | cons s rest => simp [String.join_cons]
  | @messages _ content reason usage stop counts pieces hgives hcontent hreason husage =>
      have hfields : fields? ["content", "stop_reason", "usage"] v =
          some [content, reason, usage] := fields?_of_gives hgives
      obtain ⟨blocks, hread, hpieces⟩ := hcontent.reads block?_of_isBlock
      obtain ⟨u, husage, -⟩ := husage.reads usage?_of_isUsage
      refine ⟨⟨String.join pieces.reduceOption, u, stop == some "max_tokens"⟩, ?_, rfl⟩
      rw [answer?, ofBlocks?, hfields]
      simp only [Option.bind_eq_bind, Option.bind_some, hreason.reads_text, hread, husage,
        filterMap_of_forall₂ hpieces]
  | @contents _ candidates all hgives hcandidates =>
      have hfields : fields? ["candidates"] v = some [candidates] := fields?_of_gives hgives
      obtain ⟨found, hread, hall⟩ := hcandidates.reads candidate?_of_isCandidate
      refine ⟨⟨String.join (found.headD []), none, false⟩, ?_, ?_⟩
      · rw [answer?, ofCandidates?, hfields]
        simp only [Option.bind_eq_bind, Option.bind_some, hread]
      · cases hall with
        | nil => rfl
        | cons hjoin _ => exact hjoin.symm

end Dialect

end CodeReview

import CodeReview.Proofs.Session.Amid
import CodeReview.Proofs.Session.Endurance

/-!
# The turns of a session

A session and its user take turns: the prompt is shown, something may happen meanwhile, and a line is
taken.  `Session.turnsAmid` is the list of all these turns, each with the session and the machine
that it finds, up to the one that ends the session.  A run of the session is one turn after the other
(`Session.takeLinesAmid_cons`).

What a turn does is what the command on its line does (`Session.command?`) and the report about that
(`Session.takeLine_leaves`).  A line without a command does nothing (`Session.takeLine_commandless`).
-/

namespace CodeReview

open CodeReview.Text CodeReview.CommandLine Act Command

namespace Session

variable {s s' : Session} {m : Machine} {line : List UInt8} {text command : String}
  {r : Except Failure Unit} {t : Trace}

/-! ### The command on a line -/

/-- The command on a line: its text without blank ends, unless that is empty or an exit word. -/
def command? (line : List UInt8) : Option String :=
  (String.fromUTF8? ⟨line.toArray⟩).bind fun text =>
    if trim text = "" ∨ isExit (trim text) = true then none else some (trim text)

/-- A line is text, but nothing except blanks. -/
def isBlankLine (line : List UInt8) : Bool :=
  (String.fromUTF8? ⟨line.toArray⟩).elim false fun text => trim text == ""

/-- The command of a line is what the line is without blanks around it, and is neither empty nor an
exit word. -/
lemma exists_text_of_command? (h : command? line = some command) :
    ∃ text, String.fromUTF8? ⟨line.toArray⟩ = some text ∧ trim text = command ∧
      trim text ≠ "" ∧ isExit (trim text) = false := by
  obtain ⟨text, htext, h⟩ := Option.bind_eq_some_iff.mp h
  split_ifs at h with hends
  rw [not_or, Bool.not_eq_true] at hends
  exact ⟨text, htext, Option.some.inj h, hends.1, hends.2⟩

/-- A line with a command does not end the session. -/
lemma asksEnd_of_command? (h : command? line = some command) : asksEnd line = false := by
  obtain ⟨text, htext, -, -, hexit⟩ := exists_text_of_command? h
  simpa only [asksEnd, htext] using hexit

/-- A line with a command leaves behind what the command does, and the report about that. -/
lemma takeLine_leaves (hcommand : command? line = some command) (hconsole : m.console = none)
    (h : (s.runLine command).Leaves m (r, s') t) :
    (s.takeLine line).Leaves m (.ok true, s') (t.andThen ⟨0, report r, t.disk⟩) := by
  obtain ⟨text, htext, rfl, hblank, hexit⟩ := exists_text_of_command? hcommand
  have hanswer : s.takeLine line = s.answerLine text := by simp only [takeLine, htext]
  intro j hj
  rw [hanswer, answerLine_run hblank hexit (h j hj) hconsole, Machine.after_andThen]
  rfl

/-- A line without a command leaves session and machine as they are. -/
lemma takeLine_commandless (s : Session) (h : command? line = none) :
    ∃ answer, s.takeLine line = pure (answer, s) ∧
      (IsText line → answer = .ok (!asksEnd line)) := by
  unfold command? at h
  cases htext : String.fromUTF8? ⟨line.toArray⟩ with
  | none =>
      refine ⟨.error (.userInput "<stdin>" (faultText line)), ?_, fun hline => ?_⟩
      · simp only [takeLine, htext]
      · simp [IsText, htext] at hline
  | some text =>
      have hasks : asksEnd line = isExit (trim text) := by simp only [asksEnd, htext]
      rw [htext, Option.bind_some] at h
      by_cases hblank : trim text = ""
      · refine ⟨.ok true, ?_, fun _ => ?_⟩
        · simp only [takeLine, htext, answerLine, hblank, beq_self_eq_true, if_true]
        · rw [hasks, hblank]
          rfl
      · have hexit : isExit (trim text) = true := by simpa [hblank] using h
        refine ⟨.ok false, ?_, fun _ => by rw [hasks, hexit]; rfl⟩
        simp only [takeLine, htext, answerLine, beq_eq_false_iff_ne.mpr hblank, hexit,
          Bool.false_eq_true, if_false, if_true]

/-- A blank line is text, and nothing without its blanks. -/
lemma isBlankLine_iff (line : List UInt8) : isBlankLine line = true ↔
    ∃ text, String.fromUTF8? ⟨line.toArray⟩ = some text ∧ trim text = "" := by
  unfold isBlankLine
  cases String.fromUTF8? ⟨line.toArray⟩ with
  | none => simp
  | some text => simp

/-- A blank line is passed over. -/
lemma takeLine_of_blank (s : Session) (h : isBlankLine line = true) :
    s.takeLine line = pure (.ok true, s) := by
  obtain ⟨text, htext, hblank⟩ := (isBlankLine_iff line).mp h
  simp only [takeLine, htext, answerLine, hblank, beq_self_eq_true, if_true]

/-- Whatever a line is, taking it leaves a trace. -/
lemma takeLine_any (s : Session) (line : List UInt8) : (s.takeLine line).Within .any := by
  unfold takeLine
  cases String.fromUTF8? ⟨line.toArray⟩ with
  | none => exact Act.within_pure _
  | some text =>
      refine Act.Within.ite (Act.within_pure _) (Act.Within.ite (Act.within_pure _) ?_)
      refine (s.runLine_any (trim text)).bind fun result => ?_
      rcases result with ⟨f | _, s'⟩
      · refine (within_note trivial).bind fun _ => ?_
        exact Act.Within.bind (display_silent _ _).any fun _ => Act.within_pure _
      · exact Act.within_pure _

end Session

/-! ### Turns -/

/-- A line that a session takes, with the session and the machine that it finds. -/
structure Turn where
  session : Session
  machine : Machine
  line : List UInt8

namespace Turn

/-- Whether the session goes on after the turn, or what broke it off. -/
def answer (t : Turn) : Except Failure Bool := ((t.session.takeLine t.line).run t.machine).1.1

/-- The session after the turn. -/
def next (t : Turn) : Session := ((t.session.takeLine t.line).run t.machine).1.2

/-- The machine after the turn. -/
def after (t : Turn) : Machine := ((t.session.takeLine t.line).run t.machine).2

/-- What was noted in the course of the turn. -/
def events (t : Turn) : List Event := t.after.journal.drop t.machine.journal.length

/-- What became of the command on the line, if there is one. -/
def result? (t : Turn) : Option (Except Failure Unit) :=
  (Session.command? t.line).map fun command => ((t.session.runLine command).run t.machine).1.1

/-- The session goes on. -/
def goesOn (t : Turn) : Bool := t.answer.toOption == some true

variable {t : Turn} {answer : Except Failure Bool} {s' : Session} {tr : Trace}

/-- The trace of a turn says what its answer is. -/
lemma answer_of_leaves
    (h : (t.session.takeLine t.line).Leaves t.machine (answer, s') tr) : t.answer = answer :=
  congrArg (·.1.1) h.run_eq

/-- The trace of a turn says which session goes on. -/
lemma next_of_leaves
    (h : (t.session.takeLine t.line).Leaves t.machine (answer, s') tr) : t.next = s' :=
  congrArg (·.1.2) h.run_eq

/-- The trace of a turn says which machine it leaves. -/
lemma after_of_leaves
    (h : (t.session.takeLine t.line).Leaves t.machine (answer, s') tr) :
    t.after = t.machine.after tr := congrArg (·.2) h.run_eq

/-- The trace of a turn says what was noted. -/
lemma events_of_leaves
    (h : (t.session.takeLine t.line).Leaves t.machine (answer, s') tr) : t.events = tr.events := by
  rw [events, after_of_leaves h]
  exact List.drop_left

/-- A turn leaves the console as it is. -/
lemma console_after (t : Turn) : t.after.console = t.machine.console := by
  obtain ⟨⟨answer, s'⟩, tr, h, -⟩ := t.session.takeLine_any t.line t.machine
  rw [after_of_leaves h]
  rfl

end Turn

namespace Session

/-- The turn that comes next: after the prompt, and what happens meanwhile, a line is taken. -/
def turn (s : Session) (m : Machine) (entry : Interlude × List UInt8) : Turn :=
  ⟨s, entry.1.act (prompt.run.run m).2, entry.2⟩

/-- The turns of a session, up to the one that ends it. -/
def turnsAmid (s : Session) (m : Machine) : List (Interlude × List UInt8) → List Turn
  | [] => []
  | entry :: rest =>
    match (prompt.run.run m).1 with
    | .error _ => []
    | .ok () =>
      let t := s.turn m entry
      t :: if t.goesOn then t.next.turnsAmid t.after rest else []

variable {m : Machine} {lines : List (Interlude × List UInt8)}

/-- A turn is taken after the prompt and what happens before the line. -/
lemma machine_turn (s : Session) (hconsole : m.console = none)
    (entry : Interlude × List UInt8) :
    (s.turn m entry).machine = entry.1.act (m.note (.shown promptText)) := by
  rw [turn, prompt_run hconsole]

/-- Turns come one after the other, up to the one that ends the session. -/
lemma turnsAmid_cons (s : Session) (hconsole : m.console = none)
    (entry : Interlude × List UInt8) (rest : List (Interlude × List UInt8)) :
    s.turnsAmid m (entry :: rest) = s.turn m entry ::
      if (s.turn m entry).goesOn then (s.turn m entry).next.turnsAmid (s.turn m entry).after rest
      else [] := by
  rw [turnsAmid, prompt_run hconsole]

/-- **A run of a session is one turn after the other.** -/
lemma takeLinesAmid_cons (s : Session) (hconsole : m.console = none)
    (entry : Interlude × List UInt8) (rest : List (Interlude × List UInt8)) :
    (s.takeLinesAmid (entry :: rest)).run m =
      if (s.turn m entry).goesOn then
        ((s.turn m entry).next.takeLinesAmid rest).run (s.turn m entry).after
      else (((s.turn m entry).answer.map fun _ => (), (s.turn m entry).next),
        (s.turn m entry).after) := by
  obtain ⟨i, line⟩ := entry
  have hprompt := prompt_run hconsole
  have hact : (modify i.act : Act Unit).run (m.note (.shown promptText)) =
      ((), (s.turn m (i, line)).machine) := by
    rw [machine_turn s hconsole]
    rfl
  rw [takeLinesAmid]
  refine (run_bind_of hprompt).trans ((run_bind_of hact).trans ?_)
  rcases htaken : (s.takeLine line).run (s.turn m (i, line)).machine with ⟨⟨answer, s'⟩, m'⟩
  have hanswer : (s.turn m (i, line)).answer = answer := congrArg (·.1.1) htaken
  have hnext : (s.turn m (i, line)).next = s' := congrArg (·.1.2) htaken
  have hafter : (s.turn m (i, line)).after = m' := congrArg (·.2) htaken
  rw [run_bind_of htaken, Turn.goesOn, hanswer, hnext, hafter]
  rcases answer with f | _ | _
  · rfl
  · rfl
  · exact (if_pos rfl).symm

/-- Where the console takes no text, there is no turn, and the prompt is all that is tried. -/
lemma takeLinesAmid_refused (s : Session) {refusal : Refusal} (h : m.console = some refusal)
    (lines : List (Interlude × List UInt8)) : s.turnsAmid m lines = [] ∧
      ((s.takeLinesAmid lines).run m).1 = (.error (.output "<stdout>" refusal.reason), s) := by
  have hprompt := prompt_refused h
  cases lines with
  | nil => exact ⟨rfl, congrArg Prod.fst (run_bind_of hprompt)⟩
  | cons entry rest =>
      refine ⟨?_, congrArg Prod.fst (run_bind_of hprompt)⟩
      rw [turnsAmid, hprompt]

end Session

end CodeReview

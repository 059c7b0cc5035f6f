import CodeReview.Proofs.Session.OneLine

/-!
# What a session endures

Whatever goes wrong with a line is to be shown in the console, and the session is to go on with the
next line until one of them is an exit word.  `Session.endure` is a session that does so with every
line: it takes all lines that are due, those before the first exit word, and shows each failure as a
session shows the failure of a command.

Nothing that becomes of a command ends a session whose console takes text (`takeLine_of_text`).  A
line that is not text does: the fault in reading it is not shown but ends the session, and no later
line is taken (`interact_breaksOff`).  So the session is one that endures exactly where all lines
that are due are text (`interact_eq_endure_iff`).
-/

namespace CodeReview

open CodeReview.Text CodeReview.CommandLine

/-- The topic that a line without blank ends asks help about, if it does. -/
def CommandLine.helpAsked? (line : String) : Option Topic :=
  (words? line).bind fun words =>
    match parse words with
    | .error (.help topic) => some topic
    | _ => none

namespace Session

/-! ### Sessions that endure -/

/-- The bytes of a line are text. -/
def IsText (line : List UInt8) : Prop := (String.fromUTF8? ⟨line.toArray⟩).isSome = true

instance (line : List UInt8) : Decidable (IsText line) := inferInstanceAs (Decidable (_ = true))

/-- A line is an exit word between blanks. -/
def asksEnd (line : List UInt8) : Bool :=
  match String.fromUTF8? ⟨line.toArray⟩ with
  | none => false
  | some text => isExit (trim text)

/-- The lines that a session is to take: all before the first exit word. -/
def due (lines : List (List UInt8)) : List (List UInt8) := lines.takeWhile fun line => !asksEnd line

/-- Take a line, and show in the console what went wrong with it. -/
def endureLine (s : Session) (line : List UInt8) : Act Session := do
  match ← s.takeLine line with
  | (.ok _, s) => pure s
  | (.error f, s) => do
    Act.log .debug f.details
    let _ ← (display (f.inlineMessage ++ "\n") false).run
    pure s

/-- Take one line after the other, each after a prompt. -/
def endureLines (s : Session) : List (List UInt8) → Act Session
  | [] => pure s
  | line :: rest => do
    let _ ← prompt.run
    let s ← s.endureLine line
    s.endureLines rest

/-- An input that ends without an exit word leaves a prompt open, which is closed by a line feed. -/
def closePrompt (lines : List (List UInt8)) : Act (Except Failure Unit) :=
  if lines.any asksEnd then pure (.ok ()) else (display "\n" false).run

/-- Take all lines that are due, with a greeting and a farewell. -/
def endure (s : Session) (lines : List (List UInt8)) : Act (Except Failure Unit × Session) := do
  greet
  let s ← s.endureLines (due lines)
  let _ ← prompt.run
  let _ ← closePrompt lines
  part (.ok ())
  pure (.ok (), s)

variable {s s' : Session} {m m' : Machine} {line : List UInt8}
  {before lines rest : List (List UInt8)}

/-- Where no line is an exit word, all lines are due. -/
lemma due_eq_self (h : ∀ line ∈ lines, asksEnd line = false) : due lines = lines :=
  List.takeWhile_eq_self_iff.mpr (by simpa using h)

/-- All lines are due, or an exit word comes right behind those that are. -/
lemma due_cases (lines : List (List UInt8)) :
    (due lines = lines ∧ lines.any asksEnd = false) ∨
      ∃ line rest, lines = due lines ++ line :: rest ∧ asksEnd line = true := by
  cases hrest : lines.dropWhile (fun line => !asksEnd line) with
  | nil =>
      left
      have hnone : ∀ line ∈ lines, asksEnd line = false := by
        simpa using List.dropWhile_eq_nil_iff.mp hrest
      exact ⟨due_eq_self hnone, by simpa using hnone⟩
  | cons line rest =>
      right
      have hline := List.head?_dropWhile_not (fun line => !asksEnd line) lines
      rw [hrest] at hline
      refine ⟨line, rest, ?_, by simpa using hline⟩
      rw [due, ← hrest, List.takeWhile_append_dropWhile]

/-- After an exit word there is no prompt to close. -/
lemma closePrompt_of_any (h : lines.any asksEnd = true) : closePrompt lines = pure (.ok ()) :=
  if_pos h

/-- Without an exit word the prompt is closed by a line feed. -/
lemma closePrompt_of_none (h : lines.any asksEnd = false) :
    closePrompt lines = (display "\n" false).run := if_neg (by simp [h])

/-- No line that is due is an exit word. -/
lemma asksEnd_of_mem_due (h : line ∈ due lines) : asksEnd line = false := by
  simpa using List.mem_takeWhile_imp h

/-! ### One line -/

/-- A console that takes text shows it. -/
lemma shown_run (text : String) (flush : Bool) (h : m.console = none) :
    (display text flush).run.run m = (.ok (), m.note (.shown text)) := display_run text flush h

/-- A console that takes text shows the prompt. -/
lemma prompt_run (h : m.console = none) :
    prompt.run.run m = (.ok (), m.note (.shown promptText)) := shown_run promptText true h

/-- What is done where help is asked for. -/
lemma runLine_of_help (s : Session) {line : String} {topic : Topic}
    (h : helpAsked? line = some topic) :
    s.runLine line = (do pure (← (display topic.text false).run, s)) := by
  obtain ⟨words, hwords, hhelp⟩ := Option.bind_eq_some_iff.mp h
  unfold runLine
  rw [hwords]
  dsimp only
  split at hhelp
  case h_1 topic' hparse =>
    obtain rfl := Option.some.inj hhelp
    rw [hparse]
  case h_2 => cases hhelp

/-- **Only help is shown by a command itself.** -/
lemma runLine_offstage (s : Session) {line : String} (h : helpAsked? line = none) :
    (s.runLine line).Within .offstage := by
  unfold runLine
  split
  case h_1 => exact Act.within_pure _
  case h_2 words hwords =>
    split
    case h_1 topic hparse => simp [helpAsked?, hwords, hparse] at h
    case h_2 f hparse => exact Act.within_pure _
    case h_3 c hparse =>
      unfold runTyped
      split
      case h_1 => exact Act.within_pure _
      case h_2 => exact run_offstage _ _ _ _
      case h_3 i horder =>
        split
        case h_1 => exact Act.within_pure _
        case h_2 => exact run_offstage _ _ _ _

/-- Running a line leaves some trace. -/
lemma runLine_any (s : Session) (line : String) : (s.runLine line).Within .any := by
  cases hhelp : helpAsked? line with
  | none => exact (s.runLine_offstage hhelp).any
  | some topic =>
      rw [s.runLine_of_help hhelp]
      exact Act.Within.bind (display_silent topic.text false).any fun _ => Act.within_pure _

/-- **Nothing that becomes of a line of text ends the session**, and it never closes the console. -/
lemma takeLine_of_text (s : Session) (hconsole : m.console = none) (htext : IsText line)
    (hgoes : asksEnd line = false) : ∃ s' m',
      (s.takeLine line).run m = ((.ok true, s'), m') ∧ m'.console = none := by
  obtain ⟨text, htext⟩ := Option.isSome_iff_exists.mp htext
  have hexit : isExit (trim text) = false := by
    simpa only [asksEnd, htext] using hgoes
  have hanswer : s.takeLine line = s.answerLine text := by simp only [takeLine, htext]
  rw [hanswer]
  by_cases hblank : trim text = ""
  · refine ⟨s, m, ?_, hconsole⟩
    simp only [answerLine, hblank, beq_self_eq_true, if_true]
    rfl
  · obtain ⟨⟨r, s'⟩, t, ht, -⟩ := runLine_any s (trim text) m
    exact ⟨s', _, answerLine_run hblank hexit ht.run_eq hconsole, hconsole⟩

/-- An exit word ends the session, and nothing is done. -/
lemma takeLine_of_asksEnd (s : Session) (m : Machine) (h : asksEnd line = true) :
    (s.takeLine line).run m = ((.ok false, s), m) := by
  unfold asksEnd at h
  split at h
  case h_1 => cases h
  case h_2 text htext =>
    have hblank : (trim text == "") = false := by
      rw [beq_eq_false_iff_ne]
      intro hempty
      rw [hempty] at h
      exact absurd h (by decide)
    simp only [takeLine, htext, answerLine, hblank, h, if_true, Bool.false_eq_true, if_false]
    rfl

/-- A line that is not text ends the session with a fault. -/
lemma takeLine_of_not_text (s : Session) (m : Machine) (h : ¬IsText line) :
    (s.takeLine line).run m = ((.error (.userInput "<stdin>" (faultText line)), s), m) := by
  have hnone : String.fromUTF8? ⟨line.toArray⟩ = none := by
    simpa [IsText] using h
  simp only [takeLine, hnone]
  rfl

/-! ### One line after the other -/

/-- **Lines of text are all taken**, as a session takes them that endures, and then the rest. -/
lemma takeLines_append (s : Session) (hconsole : m.console = none)
    (htext : ∀ line ∈ before, IsText line) (hgoes : ∀ line ∈ before, asksEnd line = false) :
    ∃ s' m', (s.endureLines before).run m = (s', m') ∧ m'.console = none ∧
      ∀ rest, (s.takeLines (before ++ rest)).run m = (s'.takeLines rest).run m' := by
  induction before generalizing s m with
  | nil => exact ⟨s, m, rfl, hconsole, fun _ => rfl⟩
  | cons line before ih =>
      rw [List.forall_mem_cons] at htext hgoes
      have hprompt := prompt_run hconsole
      obtain ⟨s₁, m₁, hline, hconsole₁⟩ :=
        s.takeLine_of_text (m := m.note (.shown promptText)) hconsole htext.1 hgoes.1
      obtain ⟨s₂, m₂, hendure, hconsole₂, htake⟩ := ih s₁ hconsole₁ htext.2 hgoes.2
      refine ⟨s₂, m₂, ?_, hconsole₂, fun rest => ?_⟩
      · have hendured : (s.endureLine line).run (m.note (.shown promptText)) = (s₁, m₁) :=
          Act.run_bind_of hline
        exact (Act.run_bind_of hprompt).trans ((Act.run_bind_of hendured).trans hendure)
      · exact (Act.run_bind_of hprompt).trans ((Act.run_bind_of hline).trans (htake rest))

/-- **A line that is not text breaks off the session** behind the lines before it: the fault is
neither logged nor shown, and the lines behind it are not taken. -/
theorem interact_breaksOff (s : Session) (hconsole : m.console = none)
    (htext : ∀ line ∈ before, IsText line) (hgoes : ∀ line ∈ before, asksEnd line = false)
    (hline : ¬IsText line) : ∃ s' m',
      (s.endureLines before).run (m.note greeting) = (s', m') ∧
      ∀ rest, (s.interact (before ++ line :: rest)).run m =
        ((.error (.userInput "<stdin>" (faultText line)), s'), m'.note (.shown promptText)) := by
  obtain ⟨s', m', hendure, hconsole', htake⟩ :=
    s.takeLines_append (m := m.note greeting) hconsole htext hgoes
  refine ⟨s', m', hendure, fun rest => ?_⟩
  have hgreet : greet.run m = ((), m.note greeting) := rfl
  have hlast : (s'.takeLines (line :: rest)).run m' =
      ((.error (.userInput "<stdin>" (faultText line)), s'), m'.note (.shown promptText)) :=
    (Act.run_bind_of (prompt_run hconsole')).trans
      (Act.run_bind_of (s'.takeLine_of_not_text _ hline))
  exact (Act.run_bind_of hgreet).trans (Act.run_bind_of ((htake _).trans hlast))

/-- A session that is given text endures. -/
lemma interact_of_text (s : Session) (hconsole : m.console = none)
    (htext : ∀ line ∈ due lines, IsText line) :
    (s.interact lines).run m = (s.endure lines).run m := by
  obtain ⟨s', m', hendure, hconsole', htake⟩ := s.takeLines_append (m := m.note greeting) hconsole
    htext fun _ => asksEnd_of_mem_due
  have hgreet : greet.run m = ((), m.note greeting) := rfl
  have hprompt := prompt_run hconsole'
  -- both sessions come to the last prompt, and close it in the same way
  suffices hend : (s.takeLines lines).run (m.note greeting) =
      ((.ok (), s'), ((closePrompt lines).run (m'.note (.shown promptText))).2) by
    exact ((Act.run_bind_of hgreet).trans (Act.run_bind_of hend)).trans
      ((Act.run_bind_of hgreet).trans
        ((Act.run_bind_of hendure).trans (Act.run_bind_of hprompt))).symm
  rcases due_cases lines with ⟨hall, hany⟩ | ⟨line, rest, hlines, hline⟩
  · have hfeed := shown_run (m := m'.note (.shown promptText)) "\n" false hconsole'
    have hnil : (s'.takeLines []).run m' =
        ((.ok (), s'), ((display "\n" false).run.run (m'.note (.shown promptText))).2) := by
      rw [hfeed]
      exact (Act.run_bind_of hprompt).trans (Act.run_bind_of hfeed)
    have htaken := (htake []).trans hnil
    rwa [List.append_nil, hall, ← closePrompt_of_none hany] at htaken
  · have hany : lines.any asksEnd = true :=
      List.any_eq_true.mpr ⟨line, by rw [hlines]; simp, hline⟩
    have hexit : (s'.takeLines (line :: rest)).run m' =
        ((.ok (), s'), m'.note (.shown promptText)) :=
      (Act.run_bind_of hprompt).trans (Act.run_bind_of (s'.takeLine_of_asksEnd _ hline))
    have htaken := (htake (line :: rest)).trans hexit
    rw [← hlines] at htaken
    rw [htaken, closePrompt_of_any hany]
    rfl

/-- A session that endures ends well. -/
lemma ne_endure_of_error {f : Failure} (h : (s.interact lines).run m = ((.error f, s'), m')) :
    (s.interact lines).run m ≠ (s.endure lines).run m := by
  intro heq
  have hendure : ((s.endure lines).run m).1.1 = .ok () := rfl
  rw [← heq, h] at hendure
  cases hendure

/-- **A session endures exactly where all lines that are due are text.**  Its console takes text,
and the input is any sequence of bytes. -/
theorem interact_eq_endure_iff (s : Session) {m : Machine} (hconsole : m.console = none)
    (input : List UInt8) :
    (s.interact (linesOf input)).run m = (s.endure (linesOf input)).run m ↔
      ∀ line ∈ due (linesOf input), IsText line := by
  refine ⟨fun heq => ?_, s.interact_of_text hconsole⟩
  cases hbad : (due (linesOf input)).find? fun line => !decide (IsText line) with
  | none => simpa using hbad
  | some line =>
      obtain ⟨hline, before, after, hdue, htext⟩ := List.find?_eq_some_iff_append.mp hbad
      have hgoes : ∀ line ∈ before, asksEnd line = false := by
        intro line hmem
        have hdue_mem : line ∈ due (linesOf input) := by
          rw [hdue]
          exact List.mem_append_left _ hmem
        exact asksEnd_of_mem_due hdue_mem
      have hlines : ∃ rest, linesOf input = before ++ line :: rest := by
        refine ⟨after ++ (linesOf input).dropWhile (fun line => !asksEnd line), ?_⟩
        rw [← List.cons_append, ← List.append_assoc, ← hdue, due, List.takeWhile_append_dropWhile]
      obtain ⟨rest, hlines⟩ := hlines
      obtain ⟨s', m', -, hbreak⟩ := s.interact_breaksOff hconsole (by simpa using htext) hgoes
        (by simpa using hline)
      have hrun := hbreak rest
      rw [← hlines] at hrun
      exact absurd heq (ne_endure_of_error hrun)

/-- A line behind the exit word need not be text. -/
theorem interact_eq_endure_unknown :
    let s := start "config.yaml" false
    let m := Machine.bare
    let input := Text.bytes "frobnicate\nexit\n" ++ [0xff, 0x0a]
    m.console = none ∧ (∃ line ∈ linesOf input, ¬IsText line) ∧
      (s.interact (linesOf input)).run m = (s.endure (linesOf input)).run m := by
  intro s m input
  have hdue : ∀ line ∈ due (linesOf input), IsText line := by decide +kernel
  exact ⟨rfl, by decide +kernel, (s.interact_eq_endure_iff rfl input).mpr hdue⟩

/-- **A byte that is no text ends the session before the exit word**, and nothing is shown. -/
theorem interact_ne_endure_invalid :
    let s := start "config.yaml" false
    let m := Machine.bare
    let input := [0xff, 0x0a] ++ Text.bytes "exit\n"
    (s.interact (linesOf input)).run m =
        ((.error (.userInput "<stdin>" "invalid utf-8 sequence of 1 bytes from index 0"), s),
          m.withJournal [greeting, .shown promptText]) ∧
      (s.interact (linesOf input)).run m ≠ (s.endure (linesOf input)).run m := by
  intro s m input
  have hlines : linesOf input = [] ++ [0xff, 0x0a] :: [Text.bytes "exit\n"] := by decide +kernel
  have hfault : faultText [0xff, 0x0a] = "invalid utf-8 sequence of 1 bytes from index 0" := by
    decide +kernel
  have hbefore : ∀ line ∈ ([] : List (List UInt8)), IsText line ∧ asksEnd line = false := by simp
  have hline : ¬IsText [0xff, 0x0a] := by decide +kernel
  obtain ⟨s', m', hbefore, hbreak⟩ := s.interact_breaksOff (m := m) rfl
    (fun line h => (hbefore line h).1) (fun line h => (hbefore line h).2) hline
  obtain ⟨rfl, rfl⟩ := Prod.mk.inj hbefore
  have hrun := hbreak [Text.bytes "exit\n"]
  rw [← hlines, hfault] at hrun
  exact ⟨hrun, ne_endure_of_error hrun⟩

end Session

end CodeReview

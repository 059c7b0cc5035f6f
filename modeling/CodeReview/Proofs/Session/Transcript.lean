import CodeReview.Proofs.Session.Turns

/-!
# The transcript of a session

All that a session shows in its console is a fold over its lines (`Session.interact_transcript`).
The input is cut into lines (`Session.AreLines`), of which all are read up to the first exit word
(`Session.readOf`).  For each of them the prompt is shown and, behind it, the reply to its command
(`Turn.reply`): the help that it asks for, the message of the failure that it ends with, or nothing.
Where no exit word comes, the prompt is shown once more and closed by a line feed.

Commands themselves show nothing, wherever they write to, so that the reply to a line can be read off
its result (`Turn.transcript_events`); the fold is an induction on the turns
(`Turn.Follow.transcript`).
-/

namespace CodeReview

open CodeReview.Text CodeReview.CommandLine Act Command

/-! ### Lines of an input -/

namespace Session

/-- These are the lines of an input: a line feed ends each of them, save perhaps the last. -/
inductive AreLines : List UInt8 → List (List UInt8) → Prop where
  | none : AreLines [] []
  | last {body : List UInt8} (hbody : 10 ∉ body) (hne : body ≠ []) : AreLines body [body]
  | ended {body rest : List UInt8} {lines : List (List UInt8)} (hbody : 10 ∉ body)
    (hrest : AreLines rest lines) : AreLines (body ++ 10 :: rest) ((body ++ [10]) :: lines)

variable {bs input rest : List UInt8} {line : List UInt8} {lines : List (List UInt8)}

/-- A line feed ends each line that an input is cut into, save perhaps the last. -/
lemma areLines_linesOf (input : List UInt8) : AreLines input (linesOf input) := by
  induction input with
  | nil => exact .none
  | cons b rest ih =>
      unfold linesOf
      by_cases hb : b = 10
      · subst hb
        exact AreLines.ended List.not_mem_nil ih
      · have hcons {body : List UInt8} (hbody : 10 ∉ body) : 10 ∉ b :: body :=
          List.not_mem_cons_of_ne_of_not_mem (Ne.symm hb) hbody
        rw [if_neg (by simpa using hb)]
        -- the byte comes before the first line, or is a line on its own
        generalize linesOf rest = lines at ih
        cases ih with
        | none => exact .last (hcons List.not_mem_nil) (List.cons_ne_nil _ _)
        | last hbody hne => exact .last (hcons hbody) (List.cons_ne_nil _ _)
        | ended hbody hrest => exact AreLines.ended (hcons hbody) hrest

/-- Bytes without a line feed belong to the first line. -/
lemma linesOf_append (h : 10 ∉ bs) (hne : bs ≠ []) (rest : List UInt8) :
    linesOf (bs ++ rest) =
      (bs ++ (linesOf rest).headD []) :: (linesOf rest).tail := by
  induction bs with
  | nil => exact absurd rfl hne
  | cons b bs ih =>
      rw [List.mem_cons, not_or] at h
      have hb : (b == 10) = false := beq_false_of_ne (Ne.symm h.1)
      rw [List.cons_append, linesOf, hb]
      cases bs with
      | nil =>
          cases hlines : linesOf rest with
          | nil => simp [hlines]
          | cons line lines => simp [hlines]
      | cons b' bs =>
          rw [ih h.2 (List.cons_ne_nil _ _)]
          rfl

/-- Lines are cut between characters. -/
lemma exists_chars_of_mem_linesOf (cs : List Char) :
    ∀ line ∈ linesOf (cs.flatMap String.utf8EncodeChar),
      ∃ ds : List Char, line = ds.flatMap String.utf8EncodeChar := by
  induction cs with
  | nil => simp [linesOf]
  | cons c cs ih =>
      rw [List.flatMap_cons]
      by_cases hc : c = '\n'
      · subst hc
        have hfeed : String.utf8EncodeChar '\n' = [10] := by decide
        have hlines (rest : List UInt8) : linesOf ([10] ++ rest) = [10] :: linesOf rest := rfl
        rw [hfeed, hlines, List.forall_mem_cons]
        exact ⟨⟨['\n'], hfeed.symm⟩, ih⟩
      · rw [linesOf_append (ten_not_mem_utf8EncodeChar hc) String.utf8EncodeChar_ne_nil,
          List.forall_mem_cons]
        cases hlines : linesOf (cs.flatMap String.utf8EncodeChar) with
        | nil => exact ⟨⟨[c], by simp⟩, by simp⟩
        | cons line lines =>
            rw [hlines, List.forall_mem_cons] at ih
            obtain ⟨⟨ds, rfl⟩, hlater⟩ := ih
            exact ⟨⟨c :: ds, by simp⟩, hlater⟩

/-- The lines of a text are texts. -/
lemma isText_of_mem_linesOf (htext : IsText input) : ∀ line ∈ linesOf input, IsText line := by
  intro line hline
  obtain ⟨text, hread⟩ := Option.isSome_iff_exists.mp htext
  have hinput : input = text.toList.flatMap String.utf8EncodeChar := by
    rw [← bytes_eq_flatMap, bytes, toUTF8_of_fromUTF8? hread]
  rw [hinput] at hline
  obtain ⟨ds, rfl⟩ := exists_chars_of_mem_linesOf text.toList line hline
  have hbytes : ds.flatMap String.utf8EncodeChar = bytes (String.ofList ds) := by
    rw [bytes_eq_flatMap, String.toList_ofList]
  rw [IsText, hbytes, fromUTF8?_bytes]
  rfl

/-- The lines that a session reads: all up to the first exit word, and that. -/
def readOf (lines : List (List UInt8)) : List (List UInt8) :=
  due lines ++ (lines.find? asksEnd).toList

/-- After an exit word nothing is read. -/
lemma readOf_cons_of_asksEnd (h : asksEnd line = true) (rest : List (List UInt8)) :
    readOf (line :: rest) = [line] := by
  simp [readOf, due, h]

/-- After any line but an exit word the next one is read. -/
lemma readOf_cons (h : asksEnd line = false) (rest : List (List UInt8)) :
    readOf (line :: rest) = line :: readOf rest := by
  simp [readOf, due, h]

end Session

/-! ### Replies -/

/-- All that was shown, one text after the other. -/
def Event.transcript (events : List Event) : String := String.join (events.filterMap shown?)

/-- Transcripts are written part by part. -/
lemma Event.transcript_append (es es' : List Event) :
    transcript (es ++ es') = transcript es ++ transcript es' := by
  rw [transcript, List.filterMap_append, String.join_append]
  rfl

/-- What happens offstage is not in the transcript. -/
lemma Event.transcript_of_offstage {d : Disk} {t : Trace}
    (h : Licence.offstage.Permits d t) : transcript t.events = "" := by
  have hnone : t.events.filterMap shown? = [] := List.filterMap_eq_nil_iff.mpr h.events
  rw [transcript, hnone]
  rfl

namespace Session

/-- The reply of a session to a command with this result. -/
def replyTo (command : String) (r : Except Failure Unit) : String :=
  match helpAsked? command, r with
  | some topic, _ => topic.text
  | none, .ok () => ""
  | none, .error f => f.inlineMessage ++ "\n"

variable {s : Session} {m : Machine} {command : String}

/-- Where the console takes text, showing some leaves just this event. -/
lemma display_leaves (text : String) (flush : Bool) (hconsole : m.console = none) :
    Command.Leaves (display text flush) m (.ok ()) ⟨0, [.shown text], m.disk⟩ :=
  fun j _ => display_run (m := m.withJournal j) text flush hconsole

/-- **What a command shows and what is reported about it is the reply to it.** -/
lemma runLine_replies (s : Session) (hconsole : m.console = none) (command : String) :
    ∃ r s' t, (s.runLine command).Leaves m (r, s') t ∧
      Event.transcript (t.events ++ report r) = replyTo command r := by
  cases hhelp : helpAsked? command with
  | some topic =>
      rw [s.runLine_of_help hhelp]
      refine ⟨.ok (), s, _, Act.Leaves.bind (display_leaves topic.text false hconsole)
        (Act.leaves_pure _ _), ?_⟩
      simp [replyTo, hhelp, Event.transcript, Event.shown?, Trace.andThen, report]
  | none =>
      obtain ⟨⟨r, s'⟩, t, ht, hpermits⟩ := s.runLine_offstage hhelp m
      refine ⟨r, s', t, ht, ?_⟩
      rw [Event.transcript_append, Event.transcript_of_offstage hpermits]
      cases r with
      | ok a => simp [replyTo, hhelp, Event.transcript, report]
      | error f =>
          have hshown : Event.transcript (report (.error f)) = f.inlineMessage ++ "\n" := by
            simp [Event.transcript, Event.shown?, report, List.filterMap_cons]
          rw [hshown, String.empty_append]
          simp only [replyTo, hhelp]

end Session

namespace Turn

/-- The reply of a session to the line of a turn: nothing, unless there is a command on it. -/
def reply (t : Turn) : String :=
  (Session.command? t.line).elim "" fun command =>
    Session.replyTo command ((t.session.runLine command).run t.machine).1.1

variable {t : Turn}

/-- **What is shown in the course of a turn is the reply.** -/
lemma transcript_events (hconsole : t.machine.console = none) :
    Event.transcript t.events = t.reply := by
  unfold reply
  cases hcommand : Session.command? t.line with
  | none =>
      obtain ⟨answer, htaken, -⟩ := t.session.takeLine_commandless hcommand
      have hpure : (t.session.takeLine t.line).Leaves t.machine (answer, t.session)
          ⟨0, [], t.machine.disk⟩ := by
        rw [htaken]
        exact leaves_pure _ _
      rw [events_of_leaves hpure]
      rfl
  | some command =>
      obtain ⟨r, s', tr, ht, hreply⟩ := t.session.runLine_replies hconsole command
      rw [events_of_leaves (Session.takeLine_leaves hcommand hconsole ht), Option.elim_some,
        ht.run_eq]
      exact hreply

/-- A line of text lets the session go on unless it asks for the end. -/
lemma answer_of_text (hconsole : t.machine.console = none) (htext : Session.IsText t.line) :
    t.answer = .ok (!Session.asksEnd t.line) := by
  cases hcommand : Session.command? t.line with
  | none =>
      obtain ⟨answer, htaken, hanswer⟩ := t.session.takeLine_commandless hcommand
      rw [Turn.answer, htaken]
      exact hanswer htext
  | some command =>
      obtain ⟨r, s', tr, ht, -⟩ := t.session.runLine_replies hconsole command
      rw [answer_of_leaves (Session.takeLine_leaves hcommand hconsole ht),
        Session.asksEnd_of_command? hcommand]
      rfl

/-- Nothing is done in the turn of an exit word. -/
lemma of_asksEnd (h : Session.asksEnd t.line = true) :
    t.answer = .ok false ∧ t.next = t.session ∧ t.after = t.machine := by
  have htaken := t.session.takeLine_of_asksEnd t.machine h
  exact ⟨congrArg (·.1.1) htaken, congrArg (·.1.2) htaken, congrArg (·.2) htaken⟩

/-- The turns come one after the other, each after a prompt, and lead from one session and machine
to another. -/
def Follow (s : Session) (m : Machine) : List Turn → Session → Machine → Prop
  | [], s', m' => s' = s ∧ m' = m
  | t :: rest, s', m' =>
    t.session = s ∧ t.machine = m.note (.shown Session.promptText) ∧
      Follow t.next t.after rest s' m'

variable {s s' : Session} {m m' : Machine} {turns : List Turn}

/-- **The transcript of turns**: for each of them the prompt, and the reply. -/
lemma Follow.transcript (h : Follow s m turns s' m') (hconsole : m.console = none) :
    Event.transcript m'.journal = Event.transcript m.journal ++
      String.join (turns.map fun t => Session.promptText ++ t.reply) := by
  induction turns generalizing s m with
  | nil =>
      rw [h.2]
      simp
  | cons t rest ih =>
      obtain ⟨-, hmachine, hrest⟩ := h
      have hfound : t.machine.console = none := by
        rw [hmachine]
        exact hconsole
      have hjournal : t.after.journal = m.journal ++ [.shown Session.promptText] ++ t.events := by
        obtain ⟨⟨answer, next⟩, tr, ht, -⟩ := t.session.takeLine_any t.line t.machine
        rw [after_of_leaves ht, events_of_leaves ht, hmachine]
        rfl
      have hprompt : Event.transcript [.shown Session.promptText] = Session.promptText := by
        simp [Event.transcript, Event.shown?]
      rw [ih hrest (t.console_after.trans hfound), hjournal, Event.transcript_append,
        Event.transcript_append, transcript_events hfound, hprompt, List.map_cons,
        String.join_cons]
      simp only [String.append_assoc]

end Turn

/-! ### The whole session -/

namespace Session

/-- The turns of a session around which nothing happens. -/
def turns (s : Session) (m : Machine) (lines : List (List UInt8)) : List Turn :=
  s.turnsAmid m (lines.map (Interlude.still, ·))

/-- What a session tells after its lines: where none of them was an exit word, the prompt is shown
once more and closed. -/
def leaving (lines : List (List UInt8)) : List Event :=
  if lines.any asksEnd then [] else [.shown promptText, .shown "\n"]

variable {s : Session} {m : Machine} {lines : List (List UInt8)} {input : List UInt8}

/-- **Lines of text are read up to the first exit word**, each in a turn of its own. -/
lemma takeLines_follow (hconsole : m.console = none) (htext : ∀ line ∈ lines, IsText line) :
    ∃ s' m', Turn.Follow s m (s.turns m lines) s' m' ∧
      (s.turns m lines).map Turn.line = readOf lines ∧
      (s.takeLines lines).run m =
        ((.ok (), s'), m'.withJournal (m'.journal ++ leaving lines)) := by
  induction lines generalizing s m with
  | nil =>
      refine ⟨s, m, ⟨rfl, rfl⟩, rfl, ?_⟩
      rw [takeLines_nil_run s hconsole, List.append_assoc]
      rfl
  | cons line rest ih =>
      rw [List.forall_mem_cons] at htext
      set t := s.turn m (Interlude.still, line) with ht
      have hmachine : t.machine = m.note (.shown promptText) := machine_turn s hconsole _
      have hfound : t.machine.console = none := by
        rw [hmachine]
        exact hconsole
      have hanswer : t.answer = .ok (!asksEnd line) := Turn.answer_of_text hfound htext.1
      have hturns : s.turns m (line :: rest) =
          t :: if t.goesOn then t.next.turns t.after rest else [] :=
        turnsAmid_cons s hconsole _ _
      have hrun := takeLinesAmid_cons s hconsole (.still, line) (rest.map (Interlude.still, ·))
      rw [← List.map_cons, takeLinesAmid_still, takeLinesAmid_still, ← ht] at hrun
      cases hends : asksEnd line with
      | true =>
          have hgoes : t.goesOn = false := by
            rw [Turn.goesOn, hanswer, hends]
            rfl
          have hleaving : leaving (line :: rest) = [] := by simp [leaving, hends]
          rw [hturns, hrun, hgoes, readOf_cons_of_asksEnd hends, hleaving, hanswer]
          refine ⟨t.next, t.after, ⟨rfl, hmachine, rfl, rfl⟩, rfl, ?_⟩
          rw [List.append_nil]
          rfl
      | false =>
          have hgoes : t.goesOn = true := by
            rw [Turn.goesOn, hanswer, hends]
            rfl
          have hleaving : leaving (line :: rest) = leaving rest := by simp [leaving, hends]
          obtain ⟨s', m', hfollow, hread, hrest⟩ := ih (t.console_after.trans hfound) htext.2
          rw [hturns, hrun, hgoes, readOf_cons hends, hleaving]
          exact ⟨s', m', ⟨rfl, hmachine, hfollow⟩, congrArg (line :: ·) hread, hrest⟩

/-- Behind the first exit word nothing is read. -/
lemma takeLines_readOf (s : Session) (lines : List (List UInt8)) :
    s.takeLines (readOf lines) = s.takeLines lines := by
  induction lines generalizing s with
  | nil => rfl
  | cons line rest ih =>
      cases hends : asksEnd line with
      | false =>
          rw [readOf_cons hends, takeLines, takeLines]
          simp only [ih]
      | true =>
          have htaken : s.takeLine line = pure (.ok false, s) :=
            funext fun m => s.takeLine_of_asksEnd m hends
          rw [readOf_cons_of_asksEnd hends, takeLines, takeLines, htaken]
          simp only [pure_bind]

/-- **The transcript of a session** is a fold over its lines: the input, if it is text, is cut into
lines, and of these all are read up to the first exit word, each in a turn of its own; the session
shows the prompt and the reply for each of them, and ends well. -/
theorem interact_transcript (s : Session) {m : Machine} (hconsole : m.console = none)
    {input : List UInt8} (htext : IsText input) :
    let lines := linesOf input
    let turns := s.turns (m.note greeting) lines
    let ended := (s.interact lines).run m
    AreLines input lines ∧ turns.map Turn.line = readOf lines ∧
      (∀ t ∈ turns, asksEnd t.line = true → t.next = t.session ∧ t.after = t.machine) ∧
      (∃ m', Turn.Follow s (m.note greeting) turns ended.1.2 m' ∧
        ended.2 = m'.withJournal (m'.journal ++ leaving lines ++ [.logged .info "👋 Bye"])) ∧
      (s.interact (readOf lines)).run m = ended ∧ ended.1.1 = .ok () ∧
      Event.transcript ended.2.journal = Event.transcript m.journal ++
        String.join (turns.map fun t => promptText ++ t.reply) ++
        (if lines.any asksEnd then "" else promptText ++ "\n") := by
  intro lines turns ended
  obtain ⟨s', m', hfollow, hread, hrun⟩ := takeLines_follow (s := s) (m := m.note greeting) hconsole
    (isText_of_mem_linesOf htext)
  have hended : ended = ((.ok (), s'),
      m'.withJournal (m'.journal ++ leaving lines ++ [.logged .info "👋 Bye"])) := by
    have hgreet : greet.run m = ((), m.note greeting) := rfl
    exact (run_bind_of hgreet).trans (run_bind_of hrun)
  refine ⟨areLines_linesOf input, hread, fun t _ hends => (Turn.of_asksEnd hends).2, ?_, ?_, ?_, ?_⟩
  · rw [hended]
    exact ⟨m', hfollow, rfl⟩
  · unfold interact
    rw [takeLines_readOf]
    rfl
  · rw [hended]
  · have htold := hfollow.transcript hconsole
    have hgreeting : Event.transcript (m.note greeting).journal = Event.transcript m.journal := by
      rw [Machine.note, Event.transcript_append]
      exact String.append_empty
    have hleaving : Event.transcript (leaving lines ++ [.logged .info "👋 Bye"]) =
        if lines.any asksEnd then "" else promptText ++ "\n" := by
      unfold leaving
      split_ifs
      · rfl
      · simp [Event.transcript, Event.shown?, List.filterMap_cons]
    rw [hended, Machine.withJournal, List.append_assoc, Event.transcript_append, htold, hgreeting,
      hleaving]

/-- A blank line, an unknown command, and an exit word in capitals before another command. -/
theorem interact_transcript_unknown :
    let s := start "config.yaml" false
    let m := Machine.bare
    let input := Text.bytes "\nfrobnicate\n Quit\nfrobnicate"
    let turns := s.turns (m.note greeting) (linesOf input)
    m.console = none ∧ IsText input ∧
      turns.map Turn.line = [Text.bytes "\n", Text.bytes "frobnicate\n", Text.bytes " Quit\n"] ∧
      Event.transcript ((s.interact (linesOf input)).run m).2.journal =
        String.join (turns.map fun t => promptText ++ t.reply) := by
  intro s m input turns
  have hread : readOf (linesOf input) =
      [Text.bytes "\n", Text.bytes "frobnicate\n", Text.bytes " Quit\n"] := by decide +kernel
  have hany : (linesOf input).any asksEnd = true := by decide +kernel
  have htext : IsText input := by decide +kernel
  obtain ⟨-, hlines, -, -, -, -, htold⟩ := s.interact_transcript (m := m) rfl htext
  rw [hany, if_pos rfl, String.append_empty] at htold
  exact ⟨rfl, htext, hlines.trans hread, htold.trans String.empty_append⟩

end Session

end CodeReview

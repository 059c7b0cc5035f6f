import CodeReview.Proofs.Machine.Matching
import CodeReview.Proofs.Session.Checking
import CodeReview.Proofs.Session.Turns

/-!
# Lines that make no difference

Some lines only get a remark from the session that they are given to: blank ones, those that are no
command or no complete one, requests for help, commands that only check a configuration, and reviews
that ask for another configuration too late.  `Session.isIdle` decides which these are, and on such a
line a session only logs and shows something, in no time, and remains as it is
(`Session.takeLine_idle`).

What the session has told makes no difference to what it does later.  So idle lines may be left out
of a script: all other lines come to the same, their results, requests, files and printed texts
included (`Session.interactAmid_thin`).  What happens around a line that is left out happens around
the next line that is kept, so that those lines see the same disk and the same clock.
-/

namespace CodeReview

open CodeReview.Text CodeReview.CommandLine Machine Act Command Licence

/-! ### Lines that get a remark only -/

namespace Session

/-- A command is idle where it is none, asks for help, gives no order, only checks a configuration,
or asks for a configuration that the session cannot turn to. -/
def isIdleCommand (s : Session) (command : String) : Bool :=
  match words? command with
  | none => true
  | some words =>
    match parse words with
    | .error _ => true
    | .ok c =>
      match c.order with
      | none => true
      | some (.init writeSample) => !writeSample
      | some (.review _) => (c.configPath.elim (.ok s) (s.switchConfig command)).toOption.isNone

/-- A line is idle where it is blank or holds an idle command. -/
def isIdle (s : Session) (line : List UInt8) : Bool :=
  isBlankLine line || (command? line).any s.isIdleCommand

variable {s : Session} {line : List UInt8} {command : String} {L : Licence}

/-- An act whose result is handed on together with the session. -/
lemma leaves_beside {α : Type} {act : Act α} (h : act.Within L) (s : Session) (m : Machine) :
    ∃ a t, Act.Leaves (do pure (← act, s)) m (a, s) t ∧ L.Permits m.disk t := by
  obtain ⟨a, t, ht, hpermits⟩ := h m
  have hbind : Act.Leaves (do pure (← act, s)) m (a, s) (t.andThen ⟨0, [], t.disk⟩) :=
    ht.bind (leaves_pure (a, s) _)
  rw [Trace.andThen_nothing] at hbind
  exact ⟨a, t, hbind, hpermits⟩

/-- A check of a configuration leaves the session as it is. -/
lemma run_init_leaves (s : Session) (wait : Bool) (path : String) (m : Machine) :
    ∃ r t, (s.run wait path (.init false)).Leaves m (r, s) t ∧ logging.Permits m.disk t := by
  obtain ⟨⟨r, s'⟩, t, ht, hpermits⟩ := s.run_init_logging wait path m
  have hcarried := (s.run_eq_carryOut wait path (.init false) m).1
  rw [ht.run_eq] at hcarried
  obtain rfl : s' = s := congrArg Prod.snd hcarried
  exact ⟨r, t, ht, hpermits⟩

/-- **An idle command gets a remark only**, and leaves the session as it is. -/
lemma runLine_idle (h : s.isIdleCommand command = true) (m : Machine) :
    ∃ r t, (s.runLine command).Leaves m (r, s) t ∧ remarking.Permits m.disk t := by
  have hpure (result : Except Failure Unit) :
      ∃ r t, (pure (result, s) : Act _).Leaves m (r, s) t ∧ remarking.Permits m.disk t :=
    ⟨result, _, leaves_pure _ m, permits_nothing _⟩
  have hshown (topic : Topic) : Command.Within remarking (display topic.text false) :=
    Command.within_get_bind (fun _ => Command.write_within _ _ (.inr rfl)) fun _ _ _ => rfl
  unfold runLine
  split
  case h_1 => exact hpure _
  case h_2 words hwords =>
    split
    case h_1 topic hparse => exact leaves_beside (hshown topic) s m
    case h_2 f hparse => exact hpure _
    case h_3 c hparse =>
      simp only [isIdleCommand, hwords, hparse] at h
      unfold runTyped
      split
      case h_1 => exact hpure _
      case h_2 writeSample horder =>
        obtain rfl : writeSample = false := by simpa [horder] using h
        obtain ⟨r, t, ht, hpermits⟩ := s.run_init_leaves
          (s.waitOnRateLimit || c.waitOnRateLimit) (c.configPath.getD s.configPath) m
        exact ⟨r, t, ht, hpermits.noting_mono fun _ he => .inl he⟩
      case h_3 i horder =>
        split
        case h_1 f hswitch => exact hpure _
        case h_2 s' hswitch => simp [horder, hswitch, Except.toOption] at h

/-- Reports are remarks. -/
lemma report_remarking (r : Except Failure Unit) (d : Disk) :
    remarking.Permits d ⟨0, report r, d⟩ := by
  refine ⟨fun e he => ?_, rfl, rfl⟩
  cases r with
  | ok a => exact absurd he List.not_mem_nil
  | error f =>
      rcases List.mem_cons.mp he with rfl | he
      · exact .inl rfl
      · rw [List.mem_singleton.mp he]
        exact .inr rfl

/-- **An idle line gets a remark only**, and the session goes on as it is. -/
lemma takeLine_idle {m : Machine} (hconsole : m.console = none) (h : s.isIdle line = true) :
    ∃ t, (s.takeLine line).Leaves m (.ok true, s) t ∧ remarking.Permits m.disk t := by
  rw [isIdle, Bool.or_eq_true, Option.any_eq_true] at h
  rcases h with hblank | ⟨command, hcommand, hidle⟩
  · rw [takeLine_of_blank s hblank]
    exact ⟨_, leaves_pure _ m, permits_nothing _⟩
  · obtain ⟨r, t, ht, hpermits⟩ := runLine_idle hidle m
    exact ⟨_, takeLine_leaves hcommand hconsole ht, hpermits.andThen (report_remarking r t.disk)⟩

end Session

/-! ### What becomes of a line -/

/-- What becomes of a line: the result of its command, whether the session goes on and as what, all
that was noted, and the disk. -/
structure Turn.Outcome where
  line : List UInt8
  result? : Option (Except Failure Unit)
  answer : Except Failure Bool
  session : Session
  events : List Event
  disk : Disk

namespace Turn

/-- What becomes of the line of a turn. -/
def outcome (t : Turn) : Outcome := ⟨t.line, t.result?, t.answer, t.next, t.events, t.after.disk⟩

/-- The line is idle in the session that takes it. -/
def isIdle (t : Turn) : Bool := t.session.isIdle t.line

/-- The same line is taken by the same session on machines that match. -/
structure Matches (t t' : Turn) : Prop where
  session : t'.session = t.session
  machine : t.machine.Matches t'.machine
  line : t'.line = t.line

variable {t t' : Turn}

/-- **Turns that match have the same outcome**, and leave machines that match. -/
lemma Matches.outcome_eq (h : t.Matches t') :
    t'.outcome = t.outcome ∧ t.after.Matches t'.after := by
  have hmatches := h.machine
  obtain ⟨⟨answer, next⟩, tr, ht, -⟩ := t.session.takeLine_any t.line t.machine
  have ht' : (t'.session.takeLine t'.line).Leaves t'.machine (answer, next) tr := by
    have hmoved := ht.withJournal hmatches.countsAs
    rwa [hmatches.rest, ← h.session, ← h.line] at hmoved
  have hresult : t'.result? = t.result? := by
    unfold result?
    rw [h.session, h.line]
    cases Session.command? t.line with
    | none => rfl
    | some command =>
        obtain ⟨a, tr', hcommand, -⟩ := t.session.runLine_any command t.machine
        rw [Option.map_some, Option.map_some, hcommand.run_eq, hcommand.run_of_matches hmatches]
  have hafter : t'.after.Matches t.after := by
    rw [after_of_leaves ht, after_of_leaves ht']
    exact (hmatches.after tr).symm
  refine ⟨?_, hafter.symm⟩
  unfold outcome
  rw [hresult, hafter.disk_eq, answer_of_leaves ht, answer_of_leaves ht', next_of_leaves ht,
    next_of_leaves ht', events_of_leaves ht, events_of_leaves ht', h.line]

/-- An idle turn leaves the session as it is, and a machine that matches. -/
lemma of_isIdle (hconsole : t.machine.console = none) (h : t.isIdle = true) :
    t.goesOn = true ∧ t.next = t.session ∧ t.machine.Matches t.after := by
  obtain ⟨tr, ht, hpermits⟩ := Session.takeLine_idle hconsole h
  refine ⟨?_, next_of_leaves ht, ?_⟩
  · rw [goesOn, answer_of_leaves ht]
    rfl
  · rw [after_of_leaves ht]
    exact matches_after hpermits

end Turn

/-! ### Scripts -/

/-- A change around a session that does not depend on what the session has told, except for what is
counted.  The console stays as it is. -/
structure Change extends Interlude where
  blind {m : Machine} {j : List Event} :
    m.CountsAs j → act (m.withJournal j) = (act m).withJournal j
  console_eq (m : Machine) : (act m).console = m.console

namespace Change

/-- Nothing changes. -/
def still : Change := ⟨.still, fun _ => rfl, fun _ => rfl⟩

variable {m m' : Machine} {j : List Event}

/-- A change does not disturb what is counted. -/
lemma countsAs_act (c : Change) (h : m.CountsAs j) : (c.act m).CountsAs j := by
  refine ⟨?_, ?_⟩
  · refine Eq.trans h.requests ?_
    simp only [requestsSent, c.journal_eq]
  · refine Eq.trans h.questions ?_
    simp only [questionsAsked, c.journal_eq]

/-- A change leads machines that match to machines that match. -/
lemma matches_act (c : Change) (h : m.Matches m') : (c.act m).Matches (c.act m') := by
  have hact := c.blind h.countsAs
  rw [h.rest] at hact
  rw [hact]
  exact matches_withJournal (c.countsAs_act h.countsAs)

/-- One change and then another. -/
def andThen (c c' : Change) : Change where
  act m := c'.act (c.act m)
  journal_eq m := (c'.journal_eq _).trans (c.journal_eq m)
  clock_le m := Nat.le_trans (c.clock_le m) (c'.clock_le _)
  blind h := by rw [c.blind h, c'.blind (c.countsAs_act h)]
  console_eq m := (c'.console_eq _).trans (c.console_eq m)

end Change

/-- A line of a script, with what changes before it is taken, that is kept or left out. -/
structure ScriptLine where
  change : Change
  line : List UInt8
  kept : Bool

namespace ScriptLine

/-- What happens before the line is taken, and the line. -/
def entry (e : ScriptLine) : Interlude × List UInt8 := (e.change.toInterlude, e.line)

/-- All lines of a script. -/
def full (script : List ScriptLine) : List (Interlude × List UInt8) := script.map entry

/-- The lines of a script that are kept, where a change is still due: what changes before a line that
is left out changes before the next one that is kept. -/
def thinAfter (due : Change) : List ScriptLine → List (Interlude × List UInt8)
  | [] => []
  | e :: rest =>
    if e.kept then entry { e with change := due.andThen e.change } :: thinAfter .still rest
    else thinAfter (due.andThen e.change) rest

/-- The lines of a script that are kept. -/
def thin (script : List ScriptLine) : List (Interlude × List UInt8) := thinAfter .still script

/-- Thinning out leaves the lines that are kept. -/
lemma lines_thinAfter (due : Change) (script : List ScriptLine) :
    (thinAfter due script).map Prod.snd = (script.filter (·.kept)).map line := by
  induction script generalizing due with
  | nil => rfl
  | cons e rest ih =>
      rw [thinAfter, List.filter_cons]
      split_ifs
      · exact congrArg (e.line :: ·) (ih .still)
      · exact ih (due.andThen e.change)

end ScriptLine

namespace Session

open ScriptLine

variable {s : Session} {m m' : Machine} {e : ScriptLine} {rest script : List ScriptLine}

/-- All turns whose lines are left out are idle. -/
def ThinsIdly (s : Session) (m : Machine) (script : List ScriptLine) : Prop :=
  ∀ p ∈ (s.turnsAmid m (full script)).zip script, p.2.kept = false → p.1.isIdle = true

/-- The outcomes of the lines that are kept, in a run that takes all lines. -/
def keptOutcomes (s : Session) (m : Machine) (script : List ScriptLine) : List Turn.Outcome :=
  (((s.turnsAmid m (full script)).zip script).filter fun p => p.2.kept).map fun p => p.1.outcome

/-- The turns of a script go with its lines, up to the one that ends the session. -/
lemma zip_turnsAmid (s : Session) (hconsole : m.console = none) (e : ScriptLine)
    (rest : List ScriptLine) :
    (s.turnsAmid m (full (e :: rest))).zip (e :: rest) = (s.turn m e.entry, e) ::
      if (s.turn m e.entry).goesOn then
        ((s.turn m e.entry).next.turnsAmid (s.turn m e.entry).after (full rest)).zip rest
      else [] := by
  rw [full, List.map_cons, turnsAmid_cons s hconsole, List.zip_cons_cons]
  split_ifs <;> rfl

/-- Where a line is left out idly, it is idle. -/
lemma ThinsIdly.head (h : s.ThinsIdly m (e :: rest)) (hconsole : m.console = none)
    (hleft : e.kept = false) : (s.turn m e.entry).isIdle = true := by
  rw [ThinsIdly, zip_turnsAmid s hconsole, List.forall_mem_cons] at h
  exact h.1 hleft

/-- Where a script is thinned out idly, so is what follows its first line. -/
lemma ThinsIdly.tail (h : s.ThinsIdly m (e :: rest)) (hconsole : m.console = none)
    (hgoes : (s.turn m e.entry).goesOn = true) :
    (s.turn m e.entry).next.ThinsIdly (s.turn m e.entry).after rest := by
  rw [ThinsIdly, zip_turnsAmid s hconsole, List.forall_mem_cons, if_pos hgoes] at h
  exact h.2

/-- The turns of a script take its lines, one after the other. -/
lemma line_of_mem_zip (s : Session) (m : Machine) (script : List ScriptLine) :
    ∀ p ∈ (s.turnsAmid m (full script)).zip script, p.1.line = p.2.line := by
  induction script generalizing s m with
  | nil => simp
  | cons e rest ih =>
      cases hconsole : m.console with
      | none =>
          rw [zip_turnsAmid s hconsole, List.forall_mem_cons]
          refine ⟨rfl, ?_⟩
          split_ifs
          · exact ih _ _
          · simp
      | some refusal =>
          rw [(s.takeLinesAmid_refused hconsole _).1]
          simp

/-- Lines that are idle in every session may always be left out. -/
lemma thinsIdly_of_forall (m : Machine)
    (h : ∀ e ∈ script, e.kept = false → ∀ s : Session, s.isIdle e.line = true) :
    s.ThinsIdly m script := by
  intro p hp hleft
  have hline := s.line_of_mem_zip m script p hp
  rw [Turn.isIdle, hline]
  exact h p.2 (List.of_mem_zip hp).2 hleft _

/-- What becomes of the lines that are kept, line by line. -/
lemma keptOutcomes_cons (s : Session) (hconsole : m.console = none) (e : ScriptLine)
    (rest : List ScriptLine) : s.keptOutcomes m (e :: rest) =
      (if e.kept then [(s.turn m e.entry).outcome] else []) ++
        if (s.turn m e.entry).goesOn then
          (s.turn m e.entry).next.keptOutcomes (s.turn m e.entry).after rest
        else [] := by
  rw [keptOutcomes, zip_turnsAmid s hconsole]
  cases hkept : e.kept <;> cases hgoes : (s.turn m e.entry).goesOn <;> simp [hkept, keptOutcomes]

/-- A turn leaves the console as it is. -/
lemma console_turn (s : Session) (hconsole : m.console = none) (e : ScriptLine) :
    (s.turn m e.entry).after.console = none := by
  rw [Turn.console_after, machine_turn s hconsole, entry, e.change.console_eq]
  exact hconsole

/-! ### Two runs side by side -/

section Pair

variable {due : Change} (hconsole : m.console = none) (hconsole' : m'.console = none)
  (hmatches : (due.act m).Matches m')

include hconsole' hmatches

/-- The machine that a turn finds in the run that takes all lines. -/
lemma matches_turn (s : Session) (e : ScriptLine) :
    ((due.andThen e.change).act m).Matches (s.turn m' e.entry).machine := by
  rw [machine_turn s hconsole']
  exact e.change.matches_act (hmatches.trans (matches_shown m' promptText))

/-- After an idle turn, one more change is due. -/
lemma matches_after_turn (hidle : (s.turn m' e.entry).isIdle = true) :
    (s.turn m' e.entry).goesOn = true ∧ (s.turn m' e.entry).next = s ∧
      ((due.andThen e.change).act m).Matches (s.turn m' e.entry).after := by
  have hfound := matches_turn hconsole' hmatches s e
  obtain ⟨hgoes, hnext, hleft⟩ := Turn.of_isIdle
    (by rw [← Turn.console_after, console_turn s hconsole']) hidle
  exact ⟨hgoes, hnext, hfound.trans hleft⟩

include hconsole

/-- A line that is kept is taken in both runs alike. -/
lemma turns_match (s : Session) (e : ScriptLine) :
    (s.turn m (entry { e with change := due.andThen e.change })).Matches (s.turn m' e.entry) := by
  refine ⟨rfl, ?_, rfl⟩
  rw [machine_turn s hconsole]
  have hprompted := (due.andThen e.change).matches_act (matches_shown m promptText)
  exact hprompted.symm.trans (matches_turn hconsole' hmatches s e)

/-- **The run that takes fewer lines is behind by the change that is due**, and by nothing else. -/
lemma thinAfter_agrees (hidle : s.ThinsIdly m' script) :
    (s.turnsAmid m (thinAfter due script)).map Turn.outcome = s.keptOutcomes m' script ∧
      ((s.takeLinesAmid (thinAfter due script)).run m).1 =
        ((s.takeLinesAmid (full script)).run m').1 := by
  induction script generalizing s m m' due with
  | nil =>
      refine ⟨rfl, ?_⟩
      exact (congrArg Prod.fst (takeLines_nil_run s hconsole)).trans
        (congrArg Prod.fst (takeLines_nil_run s hconsole')).symm
  | cons e rest ih =>
      have hafter := console_turn s hconsole' e
      rw [keptOutcomes_cons s hconsole', full, List.map_cons, takeLinesAmid_cons s hconsole',
        ← full]
      cases hkept : e.kept with
      | false =>
          obtain ⟨hgoes, hnext, hdue⟩ :=
            matches_after_turn hconsole' hmatches (hidle.head hconsole' hkept)
          have hthin : thinAfter due (e :: rest) = thinAfter (due.andThen e.change) rest := by
            rw [thinAfter, if_neg (by simp [hkept])]
          have htail := hidle.tail hconsole' hgoes
          rw [hnext] at htail
          rw [hthin, hgoes, hnext]
          exact ih hconsole hafter hdue htail
      | true =>
          set turn := s.turn m' e.entry
          set turn' := s.turn m (entry { e with change := due.andThen e.change }) with hturn'
          obtain ⟨houtcome, hleft⟩ := (turns_match hconsole hconsole' hmatches s e).outcome_eq
          have hanswer : turn.answer = turn'.answer := congrArg Turn.Outcome.answer houtcome
          have hnext : turn.next = turn'.next := congrArg Turn.Outcome.session houtcome
          have hgoes : turn.goesOn = turn'.goesOn := by rw [Turn.goesOn, Turn.goesOn, hanswer]
          have hthin : thinAfter due (e :: rest) =
              entry { e with change := due.andThen e.change } :: thinAfter .still rest := by
            rw [thinAfter, if_pos hkept]
          rw [hthin, turnsAmid_cons s hconsole, takeLinesAmid_cons s hconsole, ← hturn', houtcome,
            hanswer, hnext, hgoes]
          cases hgoes' : turn'.goesOn with
          | false => exact ⟨rfl, rfl⟩
          | true =>
              have htail := hidle.tail hconsole' (hgoes.trans hgoes')
              rw [hnext] at htail
              have hafter' : turn'.after.console = none := by rw [← hleft.console_eq, hafter]
              have hleft' : (Change.still.act turn'.after).Matches turn.after := hleft
              obtain ⟨houtcomes, hend⟩ := ih hafter' hafter hleft' htail
              exact ⟨congrArg (turn'.outcome :: ·) houtcomes, hend⟩

end Pair

/-! ### The whole session -/

/-- The result of a session is that of taking its lines after the greeting. -/
lemma interactAmid_result (s : Session) (m : Machine) (lines : List (Interlude × List UInt8)) :
    ((s.interactAmid lines).run m).1 = ((s.takeLinesAmid lines).run (m.note greeting)).1 := by
  have hgreet : greet.run m = ((), m.note greeting) := rfl
  unfold interactAmid
  rw [run_bind_of hgreet]
  rcases htaken : (s.takeLinesAmid lines).run (m.note greeting) with ⟨⟨r, s'⟩, m'⟩
  rw [run_bind_of htaken]
  cases r <;> rfl

/-- **Idle lines may be left out of a script.**  Whatever happens around a session, each line that is
kept has the outcome that it has among all lines, and the session ends alike. -/
theorem interactAmid_thin (s : Session) (m : Machine) (script : List ScriptLine)
    (hidle : s.ThinsIdly (m.note greeting) script) :
    (thin script).map Prod.snd = (script.filter (·.kept)).map ScriptLine.line ∧
      (s.turnsAmid (m.note greeting) (thin script)).map Turn.outcome =
        s.keptOutcomes (m.note greeting) script ∧
      ((s.interactAmid (thin script)).run m).1 = ((s.interactAmid (full script)).run m).1 := by
  refine ⟨lines_thinAfter .still script, ?_⟩
  rw [interactAmid_result, interactAmid_result]
  cases hconsole : m.console with
  | none =>
      have hsame : (Change.still.act (m.note greeting)).Matches (m.note greeting) :=
        matches_withJournal (countsAs_self _)
      exact thinAfter_agrees hconsole hconsole hsame hidle
  | some refusal =>
      have hthin := s.takeLinesAmid_refused (m := m.note greeting) hconsole (thin script)
      have hfull := s.takeLinesAmid_refused (m := m.note greeting) hconsole (full script)
      rw [keptOutcomes, hthin.1, hfull.1]
      exact ⟨rfl, hthin.2.trans hfull.2.symm⟩

/-- The check of another configuration before a review. -/
theorem interactAmid_thin_check :
    let s := start "config.yaml" false
    let m := Machine.bare
    let script : List ScriptLine := [⟨.still, Text.bytes "init --config-path other.yaml\n", false⟩,
      ⟨.still, Text.bytes "analyze --file a.py\n", true⟩]
    s.ThinsIdly (m.note greeting) script ∧
      (s.turnsAmid (m.note greeting) (thin script)).map Turn.outcome =
        s.keptOutcomes (m.note greeting) script := by
  intro s m script
  have hcommand : command? (Text.bytes "init --config-path other.yaml\n") =
      some "init --config-path other.yaml" := by decide +kernel
  have hwords : words? "init --config-path other.yaml" =
      some ["init", "--config-path", "other.yaml"] := by decide +kernel
  have hparse : parse ["init", "--config-path", "other.yaml"] =
      .ok ⟨some "other.yaml", false, 0, some (.init false)⟩ := by decide +kernel
  have hidle : s.ThinsIdly (m.note greeting) script := by
    refine thinsIdly_of_forall _ fun e he hleft s => ?_
    rcases List.mem_cons.mp he with rfl | he
    · simp [isIdle, hcommand, isIdleCommand, hwords, hparse]
    · rw [List.mem_singleton.mp he] at hleft
      cases hleft
  exact ⟨hidle, (s.interactAmid_thin m script hidle).2.1⟩

end Session

end CodeReview

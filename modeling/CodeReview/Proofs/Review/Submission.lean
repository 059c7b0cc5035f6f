import CodeReview.Proofs.Disk.Store
import CodeReview.Proofs.Machine.Licensed
import CodeReview.Proofs.Session.Amid

/-!
# Submissions to a desk

A submission that the limiter denies has no effect.  One that it admits is followed by one call of
the model with its question; a text that the model gives is delivered once, and nothing else is.
`Delivers` says what may come of a delivery, `Submission.Ends` in which ways a submission may end,
and `Submission.ends` that every submission ends so.

`Desk.submitAll` brings one review after the other to a desk, with interludes in which time passes
and anything around the desk may change.  `Desk.submitAll_ends`: what is told of the whole run is
what is told of its submissions in order, so that there are as many calls as admissions, and the
printer has the texts that were to be printed and nothing else.
-/

namespace CodeReview

/-! ### What happens between two machines -/

namespace Machine

/-- What was told so far. -/
def story (m : Machine) : List Event := Event.told m.journal

/-- What was told between two machines. -/
def since (m m' : Machine) : List Event := m'.story.drop m.story.length

/-- After an act what it tells is told, too. -/
lemma story_after (m : Machine) (t : Trace) :
    (m.after t).story = m.story ++ Event.told t.events := Event.told_append _ _

/-- What has been told since before an act is what the act tells. -/
lemma since_after (m : Machine) (t : Trace) : m.since (m.after t) = Event.told t.events := by
  rw [since, story_after, List.drop_left]

end Machine

open Machine Act Command Licence

/-! ### Deliveries -/

/-- What may come of the delivery of a text: how it ends, what is told of it, and the disk
afterwards. -/
inductive Delivers (m : Machine) (text : String) (output : Option String) (locator : String)
    (operation : Operation) : Except Failure Delivery → List Event → Disk → Prop
  /-- The text and a line feed were added to what was printed. -/
  | printed (houtput : output = none) (hprinter : m.printer = none) :
      Delivers m text output locator operation (.ok .printed) [.printed (text ++ "\n")] m.disk
  /-- The printer refused the text, perhaps after it had taken it. -/
  | unprinted {r : Refusal} (houtput : output = none) (hprinter : m.printer = some r) :
      Delivers m text output locator operation (.error (.output "<stdout>" r.reason))
        (if r.whenFlushed then [.printed (text ++ "\n")] else []) m.disk
  /-- The text is the whole content of the file. -/
  | saved {destination path : String} {disk : Disk} (houtput : output = some destination)
      (hpath : path = Delivery.targetPath m destination locator operation)
      (hstore : (m.disk.store path text).1 = .ok ()) (hstored : Disk.Stored path text m.disk disk) :
      Delivers m text output locator operation (.ok (.saved path)) [] disk
  /-- The file cannot be written. -/
  | unsaved {destination path : String} {e : DiskFault} {disk : Disk}
      (houtput : output = some destination)
      (hpath : path = Delivery.targetPath m destination locator operation)
      (hstore : (m.disk.store path text).1 = .error e) (hsame : m.disk.SameFiles disk) :
      Delivers m text output locator operation (.error (.output path e.message)) [] disk

namespace Delivery

/-- Text that is taken is noted. -/
lemma write_leaves_ok (m : Machine) (e : Event) :
    Command.Leaves (Command.write none true e) m (.ok ()) ⟨0, [e], m.disk⟩ :=
  leaves_orFail_ok (fun _ _ => rfl) _

/-- Text that is refused is noted only if the refusal comes when it is passed on. -/
lemma write_leaves_error (m : Machine) (r : Refusal) (e : Event) :
    Command.Leaves (Command.write (some r) true e) m (.error (.output "<stdout>" r.reason))
      ⟨0, if r.whenFlushed then [e] else [], m.disk⟩ := by
  refine leaves_orFail_error (fun j _ => ?_) _
  obtain ⟨flushed, reason⟩ := r
  cases flushed with
  | true => rfl
  | false => exact congrArg (Except.error reason, ·) (m.withJournal j).after_nothing.symm

/-- Printing is writing a line where results are printed. -/
lemma print_leaves (m : Machine) (text : String) {r : Except Failure Unit} {t : Trace}
    (h : Command.Leaves (Command.write m.printer true (.printed (text ++ "\n"))) m r t) :
    Command.Leaves (print text) m r t := Command.leaves_get_bind h fun _ _ => rfl

/-- Storing a text leaves the disk with it. -/
lemma storeText_leaves (m : Machine) (path text : String) :
    Act.Leaves (modifyGet fun m : Machine =>
      ((m.disk.store path text).1, { m with disk := (m.disk.store path text).2 })) m
      (m.disk.store path text).1 ⟨0, [], (m.disk.store path text).2⟩ :=
  fun _ _ => congrArg (_, ·) (Machine.after_nothing _).symm

/-- Where a text can be stored, storing it leaves the disk with it. -/
lemma store_leaves_ok {m : Machine} {path text : String}
    (h : (m.disk.store path text).1 = .ok ()) :
    Command.Leaves (store path text) m (.ok ()) ⟨0, [], (m.disk.store path text).2⟩ := by
  have hstore := storeText_leaves m path text
  rw [h] at hstore
  exact leaves_orFail_ok hstore _

/-- A text that cannot be stored is reported in the words of the disk. -/
lemma store_leaves_error {m : Machine} {path text : String} {e : DiskFault}
    (h : (m.disk.store path text).1 = .error e) :
    Command.Leaves (store path text) m (.error (.output path e.message))
      ⟨0, [], (m.disk.store path text).2⟩ := by
  have hstore := storeText_leaves m path text
  rw [h] at hstore
  exact leaves_orFail_error hstore _

/-- Making a file of a text, with a line in the log about it. -/
lemma save_leaves (m : Machine) (path text : String) :
    ∃ r t, Command.Leaves (do
        store path text
        Act.log .info ("💾 Output saved to " ++ path)
        pure (saved path)) m r t ∧ t.disk = (m.disk.store path text).2 ∧
      Event.told t.events = [] ∧
      r = match (m.disk.store path text).1 with
        | .ok () => .ok (saved path)
        | .error e => .error (.output path e.message) := by
  cases hstore : (m.disk.store path text).1 with
  | ok _ =>
      have hlog := leaves_lift (leaves_note (.logged .info ("💾 Output saved to " ++ path))
        (m.after ⟨0, [], (m.disk.store path text).2⟩))
      exact ⟨_, _, (store_leaves_ok hstore).bind (hlog.bind_pure fun _ => saved path), rfl, rfl, rfl⟩
  | error e => exact ⟨_, _, (store_leaves_error hstore).bind_error, rfl, rfl, rfl⟩

/-- **A text is delivered in one of these ways.** -/
lemma deliver_leaves (m : Machine) (text : String) (output : Option String) (locator : String)
    (operation : Operation) :
    ∃ r t, Command.Leaves (deliver text output locator operation) m r t ∧
      Delivers m text output locator operation r (Event.told t.events) t.disk := by
  unfold deliver
  cases output with
  | none =>
      cases hprinter : m.printer with
      | none =>
          have hprint := print_leaves m text
            (by rw [hprinter]; exact write_leaves_ok m _)
          exact ⟨.ok .printed, _, hprint.bind_pure _, .printed rfl hprinter⟩
      | some r =>
          have hprint := print_leaves m text
            (by rw [hprinter]; exact write_leaves_error m r _)
          refine ⟨_, _, hprint.bind_error, ?_⟩
          have htold : Event.told (if r.whenFlushed then [.printed (text ++ "\n")] else []) =
              if r.whenFlushed then [.printed (text ++ "\n")] else [] := by
            split_ifs <;> rfl
          rw [htold]
          exact .unprinted rfl hprinter
  | some destination =>
      obtain ⟨r, t, hsave, hdisk, htold, hr⟩ :=
        save_leaves m (targetPath m destination locator operation) text
      refine ⟨r, t, Command.leaves_get_bind hsave fun _ _ => rfl, ?_⟩
      rw [htold, hdisk, hr]
      cases hstore : (m.disk.store (targetPath m destination locator operation) text).1 with
      | ok _ => exact .saved rfl rfl hstore (Disk.stored_of_store hstore)
      | error e => exact .unsaved rfl rfl hstore (Disk.sameFiles_of_store hstore)

end Delivery

/-- A delivery reads nothing of the machine but disk, stamp and printer. -/
lemma Delivers.congr {m m' : Machine} {text : String} {output : Option String} {locator : String}
    {operation : Operation} {r : Except Failure Delivery} {events : List Event} {disk : Disk}
    (h : Delivers m' text output locator operation r events disk) (hdisk : m'.disk = m.disk)
    (hstamp : m'.stamp = m.stamp) (hprinter : m'.printer = m.printer) :
    Delivers m text output locator operation r events disk := by
  have htarget : ∀ destination, Delivery.targetPath m' destination locator operation =
      Delivery.targetPath m destination locator operation := by
    intro destination
    rw [Delivery.targetPath, Delivery.targetPath, hdisk, hstamp]
  cases h with
  | printed houtput hnone => exact hdisk ▸ .printed houtput (hprinter ▸ hnone)
  | unprinted houtput hsome => exact hdisk ▸ .unprinted houtput (hprinter ▸ hsome)
  | saved houtput hpath hstore hstored =>
      rw [hdisk] at hstore hstored
      exact .saved houtput (hpath.trans (htarget _)) hstore hstored
  | unsaved houtput hpath hstore hsame =>
      rw [hdisk] at hstore hsame
      exact .unsaved houtput (hpath.trans (htarget _)) hstore hsame

/-! ### One submission -/

/-- A review that is submitted to a desk on a machine. -/
structure Submission where
  desk : Desk
  machine : Machine
  prepared : Prepared
  invocation : Invocation

namespace Submission

variable (s : Submission)

/-- What comes of the submission. -/
def outcome : (Except Failure Delivery × Desk) × Machine :=
  (s.desk.submit s.prepared s.invocation).run s.machine

/-- What the submission ends as. -/
def result : Except Failure Delivery := s.outcome.1.1

/-- The desk that the submission leaves. -/
def deskAfter : Desk := s.outcome.1.2

/-- The machine that the submission leaves. -/
def after : Machine := s.outcome.2

/-- What comes of a submission, in parts. -/
lemma submit_run : (s.desk.submit s.prepared s.invocation).run s.machine =
    ((s.result, s.deskAfter), s.after) := rfl

/-- What is told of the submission. -/
def events : List Event := s.machine.since s.after

/-- What the limiter says. -/
def decision : Decision := (s.desk.limiter.check s.machine.clock).1

/-- One call of the model with the question, on the machine that the submission finds. -/
def asking : Option (Except ServiceFault String) × Machine :=
  (s.prepared.question.ask s.desk.config.requestTimeout).run s.machine

/-- What the model says. -/
def answer : Option (Except ServiceFault String) := s.asking.1

/-- What is told of that call. -/
def call : List Event := s.machine.since s.asking.2

/-- What is told of an admission, and of the call that follows it. -/
def admission : List Event := .decided s.machine.clock .allowed :: s.call

/-- In which ways a submission may end: what is told of it, its result, and the disk afterwards. -/
inductive Ends (s : Submission) : List Event → Except Failure Delivery → Disk → Prop
  /-- The limiter denied it. -/
  | denied {wait : Duration} (hdecision : s.decision = .denied wait) :
      Ends s [.decided s.machine.clock (.denied wait)] (.error (.rateLimited wait)) s.machine.disk
  /-- The user interrupted the call. -/
  | cancelled (hdecision : s.decision = .allowed) (hanswer : s.answer = none) :
      Ends s s.admission (.error .cancelled) s.machine.disk
  /-- The model gave no text. -/
  | refused {f : ServiceFault} (hdecision : s.decision = .allowed)
      (hanswer : s.answer = some (.error f)) :
      Ends s s.admission (.error (Desk.refused s.prepared.model f)) s.machine.disk
  /-- The text that the model gave was to be delivered. -/
  | answered {text : String} {r : Except Failure Delivery} {events : List Event} {disk : Disk}
      (hdecision : s.decision = .allowed) (hanswer : s.answer = some (.ok text))
      (hdelivers : Delivers s.machine text s.invocation.output s.invocation.locator
        s.prepared.operation r events disk) :
      Ends s (s.admission ++ events) r disk

/-- A submission that was admitted is served. -/
lemma serve_leaves (hdecision : s.decision = .allowed) : ∃ r t,
    Command.Leaves (Desk.serve s.desk.config.requestTimeout s.prepared s.invocation)
      (s.machine.after ⟨0, [.decided s.machine.clock .allowed], s.machine.disk⟩) r t ∧
    s.Ends (.decided s.machine.clock .allowed :: Event.told t.events) r t.disk := by
  obtain ⟨a, t, hask, hdisk, -⟩ :=
    s.prepared.question.ask_leaves s.desk.config.requestTimeout s.machine
  have hasking : s.asking = (a, s.machine.after t) := hask.run_eq
  have hanswer : s.answer = a := by rw [answer, hasking]
  have hadmission : s.admission = .decided s.machine.clock .allowed :: Event.told t.events := by
    rw [admission, call, hasking, since_after]
  -- the decision of the limiter, though it is told, makes no difference to the answer
  have hcounts : s.machine.CountsAs (s.machine.journal ++ [.decided s.machine.clock .allowed]) :=
    s.machine.countsAs_append (by simp [Event.isCounted])
  obtain ⟨t', hask', htold, hdisk'⟩ := Desk.ask_leaves _ _ (hask.withJournal hcounts)
  cases a with
  | none =>
      refine ⟨.error .cancelled, t', hask'.bind_error, ?_⟩
      rw [htold, ← hadmission, hdisk', hdisk]
      exact .cancelled hdecision hanswer
  | some reply =>
      cases reply with
      | error f =>
          refine ⟨.error (Desk.refused s.prepared.model f), t', hask'.bind_error, ?_⟩
          rw [htold, ← hadmission, hdisk', hdisk]
          exact .refused hdecision hanswer
      | ok text =>
          obtain ⟨r, t'', hdeliver, hdelivers⟩ := Delivery.deliver_leaves
            ((s.machine.after ⟨0, [.decided s.machine.clock .allowed], s.machine.disk⟩).after t')
            text s.invocation.output s.invocation.locator s.prepared.operation
          refine ⟨r, t'.andThen t'', hask'.bind hdeliver, ?_⟩
          have hevents : .decided s.machine.clock .allowed :: Event.told (t'.andThen t'').events =
              s.admission ++ Event.told t''.events := by
            rw [hadmission, ← htold, Trace.andThen, Event.told_append, List.cons_append]
          have hdelivers' := hdelivers.congr (m := s.machine) (hdisk'.trans hdisk) rfl rfl
          rw [hevents]
          exact .answered hdecision hanswer hdelivers'

/-- The submission leaves a trace, and its limiter has been asked once. -/
lemma submit_leaves : ∃ r t,
    (s.desk.submit s.prepared s.invocation).Leaves s.machine
      (r, { s.desk with limiter := (s.desk.limiter.check s.machine.clock).2 }) t ∧
    s.Ends (Event.told t.events) r t.disk := by
  have hgate : s.desk.askLimiter.Leaves s.machine
      (s.decision, { s.desk with limiter := (s.desk.limiter.check s.machine.clock).2 })
      ⟨0, [.decided s.machine.clock s.decision], s.machine.disk⟩ := fun _ _ => rfl
  unfold Desk.submit
  cases hdecision : s.decision with
  | denied wait =>
      rw [hdecision] at hgate
      have hlog := leaves_note (.logged .debug ("🚦 Request denied, retry after " ++ wait.seconds ++
        "s")) (s.machine.after ⟨0, [.decided s.machine.clock (.denied wait)], s.machine.disk⟩)
      exact ⟨.error (.rateLimited wait), _, hgate.bind (hlog.bind (Act.leaves_pure _ _)),
        .denied hdecision⟩
  | allowed =>
      rw [hdecision] at hgate
      obtain ⟨r, t, hserve, hends⟩ := s.serve_leaves hdecision
      refine ⟨r, .andThen ⟨0, [.decided s.machine.clock .allowed], s.machine.disk⟩
        (t.andThen ⟨0, [], t.disk⟩), hgate.bind (Act.Leaves.bind hserve (Act.leaves_pure _ _)), ?_⟩
      rw [Trace.andThen_nothing]
      exact hends

/-- **Every submission ends in one of these ways, and leaves its desk with the limiter that was
asked once.** -/
lemma ends : s.Ends s.events s.result s.after.disk ∧
    s.deskAfter = { s.desk with limiter := (s.desk.limiter.check s.machine.clock).2 } ∧
    ∃ t, s.after = s.machine.after t := by
  obtain ⟨r, t, hleaves, hends⟩ := s.submit_leaves
  have houtcome : s.outcome = _ := hleaves.run_eq
  have hafter : s.after = s.machine.after t := by rw [after, houtcome]
  refine ⟨?_, by rw [deskAfter, houtcome], t, hafter⟩
  rw [events, result, hafter, since_after, houtcome]
  exact hends

/-- What is told after a submission is what was told before, and its events. -/
lemma story_after_eq : s.after.story = s.machine.story ++ s.events := by
  obtain ⟨-, -, t, hafter⟩ := s.ends
  rw [events, hafter, since_after, Machine.story_after]

/-- The call of a submission is one call with prompt, source and model of what was prepared. -/
lemma isCall_call : s.prepared.question.IsCall s.machine.models s.call := by
  obtain ⟨a, t, hask, -, hcall⟩ :=
    s.prepared.question.ask_leaves s.desk.config.requestTimeout s.machine
  have hasking : s.asking = (a, s.machine.after t) := hask.run_eq
  rwa [call, hasking, since_after]

end Submission

/-! ### Counting and printing -/

/-- The event is a question put to a model. -/
def Event.isConsulted : Event → Bool
  | .consulted _ => true
  | _ => false

/-- The text that the event added to what was printed. -/
def Event.printed? : Event → Option String
  | .printed text => some text
  | _ => none

/-- All events of an exchange with a model are counted. -/
lemma Question.IsExchange.isCounted {q : Question} {source : ModelSource} {events : List Event}
    (h : q.IsExchange source events) : ∀ e ∈ events, e.isCounted = true := by
  intro e he
  cases source with
  | network =>
      obtain ⟨request, outcome, rfl⟩ := h e he
      rfl
  | rehearsal reply =>
      obtain rfl : events = _ := h
      obtain rfl := List.mem_singleton.mp he
      rfl

namespace Submission

variable (s : Submission)

/-- The text that the submission prints where the printer takes everything. -/
def printedText? : Option String :=
  match s.decision, s.answer, s.invocation.output with
  | .allowed, some (.ok text), none => some (text ++ "\n")
  | _, _, _ => none

/-- An admission puts one question. -/
lemma countP_admission : s.admission.countP Event.isConsulted = 1 := by
  obtain ⟨exchange, hcall, hexchange⟩ := s.isCall_call
  have hnone : exchange.countP Event.isConsulted = 0 := by
    rw [List.countP_eq_zero]
    intro e he hconsulted
    have hcounted := hexchange.isCounted e he
    cases e <;> simp_all [Event.isConsulted, Event.isCounted]
  rw [admission, hcall, List.countP_cons, List.countP_cons, hnone]
  rfl

/-- An admission prints nothing. -/
lemma filterMap_admission : s.admission.filterMap Event.printed? = [] := by
  obtain ⟨exchange, hcall, hexchange⟩ := s.isCall_call
  have hnone : exchange.filterMap Event.printed? = [] := by
    rw [List.filterMap_eq_nil_iff]
    intro e he
    have hcounted := hexchange.isCounted e he
    cases e <;> simp_all [Event.printed?, Event.isCounted]
  rw [admission, hcall, List.filterMap_cons_none rfl, List.filterMap_cons_none rfl, hnone]

variable {s} {events : List Event} {r : Except Failure Delivery} {disk : Disk}

/-- The limiter is asked in any case. -/
lemma Ends.decided_mem (h : s.Ends events r disk) :
    ∃ decision, Event.decided s.machine.clock decision ∈ events := by
  cases h with
  | denied => exact ⟨_, List.mem_cons_self⟩
  | _ => exact ⟨.allowed, by simp [admission]⟩

/-- A model is called once where the limiter admits the submission, and else not at all. -/
lemma Ends.countP_consulted (h : s.Ends events r disk) :
    events.countP Event.isConsulted = if s.decision = .allowed then 1 else 0 := by
  cases h with
  | denied hdecision => simp [hdecision, Event.isConsulted]
  | cancelled hdecision _ => rw [countP_admission, if_pos hdecision]
  | refused hdecision _ => rw [countP_admission, if_pos hdecision]
  | answered hdecision _ hdelivers =>
      rw [List.countP_append, countP_admission, if_pos hdecision]
      cases hdelivers with
      | unprinted => split_ifs <;> rfl
      | _ => rfl

/-- Where the printer takes everything, what is printed is the text that was to be printed. -/
lemma Ends.filterMap_printed (h : s.Ends events r disk) (hprinter : s.machine.printer = none) :
    events.filterMap Event.printed? = s.printedText?.toList := by
  cases h with
  | denied hdecision => simp [printedText?, hdecision, Event.printed?]
  | cancelled hdecision hanswer => simp [printedText?, hdecision, hanswer, filterMap_admission]
  | refused hdecision hanswer => simp [printedText?, hdecision, hanswer, filterMap_admission]
  | answered hdecision hanswer hdelivers =>
      rw [List.filterMap_append, filterMap_admission, List.nil_append]
      cases hdelivers with
      | printed houtput => simp [printedText?, hdecision, hanswer, houtput, Event.printed?]
      | unprinted _ hrefuses => simp [hprinter] at hrefuses
      | saved houtput => simp [printedText?, hdecision, hanswer, houtput]
      | unsaved houtput => simp [printedText?, hdecision, hanswer, houtput]

/-- There are as many calls as admissions. -/
lemma countP_flatMap (ss : List Submission) :
    (ss.flatMap Submission.events).countP Event.isConsulted =
      ss.countP (fun s => s.decision = .allowed) := by
  induction ss with
  | nil => rfl
  | cons s rest ih =>
      rw [List.flatMap_cons, List.countP_append, s.ends.1.countP_consulted, ih, List.countP_cons,
        Nat.add_comm]
      simp only [decide_eq_true_eq]

/-- A printer that takes everything has the texts that were to be printed. -/
lemma filterMap_flatMap (ss : List Submission) (h : ∀ s ∈ ss, s.machine.printer = none) :
    (ss.flatMap Submission.events).filterMap Event.printed? =
      ss.filterMap Submission.printedText? := by
  induction ss with
  | nil => rfl
  | cons s rest ih =>
      have hrest := ih fun s' hs' => h s' (List.mem_cons_of_mem s hs')
      rw [List.flatMap_cons, List.filterMap_append,
        s.ends.1.filterMap_printed (h s List.mem_cons_self), hrest]
      cases hs : s.printedText? with
      | none => rw [List.filterMap_cons_none hs]; rfl
      | some text => rw [List.filterMap_cons_some hs]; rfl

end Submission

/-! ### A run of submissions -/

/-- A review that is brought to a desk, after an interlude. -/
structure Errand where
  before : Interlude
  prepared : Prepared
  invocation : Invocation

namespace Desk

/-- Submit one review after the other. -/
def submitAll (d : Desk) : List Errand → Act (List (Except Failure Delivery) × Desk)
  | [] => pure ([], d)
  | e :: rest => do
    modify e.before.act
    let (result, d) ← d.submit e.prepared e.invocation
    let (results, d) ← d.submitAll rest
    pure (result :: results, d)

/-- The submissions of such a run, each with the desk and the machine that it finds. -/
def submissions (d : Desk) (m : Machine) : List Errand → List Submission
  | [] => []
  | e :: rest =>
    let s : Submission := ⟨d, e.before.act m, e.prepared, e.invocation⟩
    s :: s.deskAfter.submissions s.after rest

/-- The results of a run are those of its submissions, and so is what is told of it. -/
lemma submitAll_run (d : Desk) (errands : List Errand) (m : Machine) :
    ((d.submitAll errands).run m).1.1 = (d.submissions m errands).map Submission.result ∧
      ((d.submitAll errands).run m).2.story =
        m.story ++ (d.submissions m errands).flatMap Submission.events := by
  induction errands generalizing d m with
  | nil => exact ⟨rfl, (List.append_nil _).symm⟩
  | cons e rest ih =>
      let s : Submission := ⟨d, e.before.act m, e.prepared, e.invocation⟩
      obtain ⟨hresults, hstory⟩ := ih s.deskAfter s.after
      have hrun : (d.submitAll (e :: rest)).run m =
          ((s.result :: ((s.deskAfter.submitAll rest).run s.after).1.1,
            ((s.deskAfter.submitAll rest).run s.after).1.2),
            ((s.deskAfter.submitAll rest).run s.after).2) := rfl
      have hbefore : s.machine.story = m.story := congrArg Event.told (e.before.journal_eq m)
      rw [hrun, submissions]
      refine ⟨congrArg (s.result :: ·) hresults, ?_⟩
      rw [hstory, s.story_after_eq, hbefore, List.flatMap_cons, List.append_assoc]

/-- **In every run of submissions** each ends in one of the ways of `Submission.Ends`, with one call
of the model with its own prompt, source and model where it was admitted.  There are as many calls
as admissions, and a printer that takes everything has the texts that were to be printed, in order,
and nothing else. -/
theorem submitAll_ends (d : Desk) (errands : List Errand) (m : Machine) :
    let ss := d.submissions m errands
    let run := (d.submitAll errands).run m
    run.1.1 = ss.map Submission.result ∧
    run.2.story = m.story ++ ss.flatMap Submission.events ∧
    (∀ s ∈ ss, s.Ends s.events s.result s.after.disk ∧
      s.deskAfter = { s.desk with limiter := (s.desk.limiter.check s.machine.clock).2 } ∧
      (⟨s.prepared.prompt, s.prepared.source, s.prepared.model⟩ : Question).IsCall
        s.machine.models s.call) ∧
    (ss.flatMap Submission.events).countP Event.isConsulted =
      ss.countP (fun s => s.decision = .allowed) ∧
    ((∀ s ∈ ss, s.machine.printer = none) →
      (ss.flatMap Submission.events).filterMap Event.printed? =
        ss.filterMap Submission.printedText?) := by
  intro ss run
  obtain ⟨hresults, hstory⟩ := d.submitAll_run errands m
  refine ⟨hresults, hstory, fun s _ => ?_, Submission.countP_flatMap ss,
    Submission.filterMap_flatMap ss⟩
  exact ⟨s.ends.1, s.ends.2.1, s.isCall_call⟩

end Desk

end CodeReview

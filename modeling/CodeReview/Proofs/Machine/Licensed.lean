import CodeReview.Proofs.Machine.Trace
import CodeReview.Session.Interaction

/-!
# What each command may do

Every command leaves a trace; this is said here function by function, each with the narrowest
licence that serves.  Loading or examining a configuration is `Licence.logging`, preparing a review
is `Licence.reading`, a spinner is `Licence.aside`, and what delivers a result or writes the sample
is `Licence.backstage`.  Orders may do anything but show text in the console (`Licence.offstage`):
that is left to the session, whose display is `Licence.silent`.
-/

namespace CodeReview

open Licence

variable {L : Licence}

/-! ### Journal and places that text goes to -/

namespace Act

/-- Lines of the log are logging. -/
lemma log_logging (level : Level) (text : String) : (log level text).Within logging :=
  within_note rfl

/-- Lines of the log are allowed while reading. -/
lemma log_reading (level : Level) (text : String) : (log level text).Within reading :=
  within_note trivial

/-- Writing somewhere is allowed where the event of it is, refused or not. -/
lemma write_within (place : Option Refusal) (flush : Bool) {e : Event} (he : L.event e) :
    (write place flush e).Within L := by
  unfold write
  cases place with
  | none => exact (within_note he).bind fun _ => within_pure _
  | some r => exact Within.ite ((within_note he).bind fun _ => within_pure _) (within_pure _)

end Act

namespace Command

/-- Lines of the log are allowed to commands that read. -/
lemma log_reading (level : Level) (text : String) :
    Within reading (liftM (Act.log level text)) := within_lift (Act.log_reading level text)

/-- Lines of the log are allowed to commands that log. -/
lemma log_logging (level : Level) (text : String) :
    Within logging (liftM (Act.log level text)) := within_lift (Act.log_logging level text)

/-- Lines of the log are allowed to commands that work backstage. -/
lemma log_backstage (level : Level) (text : String) :
    Within backstage (liftM (Act.log level text)) := within_lift (Act.within_note ⟨rfl, rfl⟩)

/-- Writing somewhere may fail, and is allowed where the event of it is. -/
lemma write_within (place : Option Refusal) (flush : Bool) {e : Event} (he : L.event e) :
    Within L (write place flush e) := within_orFail (Act.write_within place flush he) _

end Command

open Act Command

/-! ### The disk -/

/-- Reading a text needs no licence. -/
lemma readText_within (path : String) :
    Act.Within L (do pure ((← get).disk.readText path)) :=
  Act.within_get_bind (fun _ => Act.within_pure _) fun _ _ _ => rfl

/-- Storing a text changes the disk and nothing else. -/
lemma storeText_backstage (path text : String) :
    Act.Within backstage (modifyGet fun m : Machine =>
      ((m.disk.store path text).1, { m with disk := (m.disk.store path text).2 })) := by
  intro m
  refine ⟨(m.disk.store path text).1, ⟨0, [], (m.disk.store path text).2⟩, fun j _ => ?_,
    by simp, trivial, trivial⟩
  exact congrArg (_, ·) (Machine.after_nothing _).symm

/-! ### Configurations -/

namespace Config

/-- Reading a configuration tells that it is read, and changes nothing. -/
lemma read_within (hlog : ∀ text, L.event (.logged .info text)) (path : String) :
    Command.Within L (read path) := by
  unfold read
  refine Command.within_get_bind (fun m => ?_) fun _ _ _ => rfl
  refine Command.Within.sometimes (within_throw _) ?_
  refine (within_lift (within_note (hlog _))).bind fun _ => ?_
  refine (within_orFail (readText_within path) _).bind fun text => ?_
  cases parse path text with
  | ok c => exact Command.within_pure _
  | error e => exact within_throw _

/-- Reading a configuration only logs. -/
lemma read_logging (path : String) : Command.Within logging (read path) :=
  read_within (fun _ => rfl) path

/-- Loading a configuration is reading. -/
lemma load_reading (path : String) : Command.Within reading (load path) := by
  unfold load
  exact ((read_logging path).mono fun _ _ => reading_of_logging).bind fun c =>
    Command.Within.ite (Command.within_pure _) (within_throw _)

/-- Reporting a verdict only logs. -/
lemma report_logging (v : Verdict) : v.report.Within logging := by
  unfold Verdict.report
  refine Act.Within.ite ((Act.log_logging _ _).bind fun _ => ?_)
    ((Act.log_logging _ _).bind fun _ => ?_)
  all_goals
    refine Act.Within.sometimes (Act.log_logging _ _) ?_
    refine (within_forM _ fun _ _ => Act.log_logging _ _).bind fun _ => ?_
    exact within_forM _ fun _ _ => Act.log_logging _ _

end Config

/-- Writing the sample happens backstage. -/
lemma Config.createSample_backstage (path : String) :
    Command.Within backstage (createSample path) := by
  unfold createSample
  refine Command.within_get_bind (fun m => ?_) fun _ _ _ => rfl
  refine Command.Within.ite (Command.within_pure _) ?_
  refine (within_orFail (storeText_backstage path sample) _).bind fun _ => ?_
  exact (Command.log_backstage _ _).bind fun _ => Command.within_pure _

/-! ### Sources -/

/-- Sending a request is reading. -/
lemma Http.send_reading (timeout : Duration) (r : Http.Request) :
    (Http.send timeout r).Within reading :=
  Http.send_within (fun _ _ => trivial) (fun _ => trivial) timeout r

namespace Source

/-- Reading a file is reading. -/
lemma readFile_reading (locator path : String) :
    Command.Within reading (readFile locator path) :=
  (Command.log_reading _ _).bind fun _ => within_orFail (readText_within path) _

/-- Fetching a page is reading. -/
lemma fetch_reading (timeout : Duration) (locator : String) (url : Url) :
    Command.Within reading (fetch timeout locator url) := by
  unfold fetch
  refine (Command.log_reading _ _).bind fun _ => ?_
  refine (within_orFail (Act.within_pure _) _).bind fun request => ?_
  refine (within_orFail (Http.send_reading _ _) _).bind fun response => ?_
  refine Command.Within.sometimes (within_throw _) ?_
  refine (within_orFail (Act.within_pure _) _).bind fun text => ?_
  exact (Command.log_reading _ _).bind fun _ => Command.within_pure _

/-- Reading whatever a locator names is reading. -/
lemma resolve_reading (timeout : Duration) (locator : String) :
    Command.Within reading (resolve timeout locator) := by
  unfold resolve
  generalize Text.trim locator = trimmed
  refine Command.Within.sometimes (within_throw _) ?_
  cases place trimmed with
  | web url => exact fetch_reading _ _ _
  | file path => exact readFile_reading _ _
  | nowhere => exact within_throw _

end Source

namespace Invocation

/-- Finding out the language of a source may log that, and no more. -/
lemma sourceLanguage_reading (i : Invocation) : Command.Within reading i.sourceLanguage := by
  unfold sourceLanguage
  cases Prompt.given? i.language with
  | some language => exact Command.within_pure _
  | none =>
      cases Source.language? i.locator with
      | some language => exact (Command.log_reading _ _).bind fun _ => Command.within_pure _
      | none => exact within_throw _

/-- Preparing a review is reading. -/
lemma prepare_reading (i : Invocation) (c : Config) : Command.Within reading (i.prepare c) := by
  unfold prepare
  refine (within_liftExcept _).bind fun model => ?_
  refine (Source.resolve_reading _ _).bind fun source => ?_
  refine (sourceLanguage_reading i).bind fun language => ?_
  exact (within_liftExcept _).bind fun prompt => Command.within_pure _

end Invocation

/-! ### Models -/

namespace Terminal.Spinner

/-- Starting a spinner stands aside. -/
lemma start_aside (message : String) : (start message).Within aside := by
  unfold start
  refine Act.within_get_bind (fun m => ?_) fun _ _ _ => rfl
  cases m.terminal with
  | none => exact (within_note rfl).bind fun _ => Act.within_pure _
  | some columns => exact (within_note rfl).bind fun _ => Act.within_pure _

/-- Turning a spinner stands aside. -/
lemma turn_aside (s : Spinner) (elapsed : Duration) : (s.turn elapsed).Within aside :=
  Act.Within.ite (within_forM _ fun _ _ => within_note rfl) (Act.within_pure _)

/-- Stopping a spinner after a success stands aside. -/
lemma succeed_aside (s : Spinner) (text : String) : (s.succeed text).Within aside :=
  Act.Within.ite ((within_note rfl).bind fun _ => Act.within_pure _)
    ((within_note rfl).bind fun _ => Act.within_pure _)

/-- Stopping a spinner after a failure stands aside. -/
lemma fail_aside (s : Spinner) (text : String) : (s.fail text).Within aside :=
  Act.Within.ite ((within_note rfl).bind fun _ => Act.within_pure _)
    ((within_note rfl).bind fun _ => Act.within_pure _)

end Terminal.Spinner

/-- Remarks on an answer are allowed while reading. -/
lemma Dialect.remarks_reading (m : Model) (a : Answer) (d : Dialect) :
    (d.remarks m a).Within reading := by
  unfold remarks
  cases d with
  | completions =>
      cases a.usage with
      | none => exact Act.within_pure _
      | some counts => exact Act.log_reading _ _
  | messages =>
      have hcut : ∀ text, Act.Within reading
          (if a.cutOff then Act.log .warn text else pure ()) :=
        fun _ => Act.Within.ite (Act.log_reading _ _) (Act.within_pure _)
      cases a.usage with
      | none => exact hcut _
      | some counts => exact (Act.log_reading _ _).bind fun _ => hcut _
  | contents => exact Act.within_pure _

namespace Question

/-- Making an answer out of a response is reading. -/
lemma readAnswer_reading (q : Question) (r : Http.Response) : (q.readAnswer r).Within reading := by
  unfold readAnswer
  dsimp only
  refine Act.Within.ite (Act.within_pure _) ?_
  split
  · exact Act.within_pure _
  · exact (Dialect.remarks_reading _ _ _).bind fun _ => Act.within_pure _

/-- Asking over the network is reading. -/
lemma askNetwork_reading (timeout : Duration) (q : Question) :
    (q.askNetwork timeout).Within reading := by
  unfold askNetwork
  dsimp only
  cases q.model.base with
  | error e => exact Act.within_pure _
  | ok base =>
      refine Act.within_get_bind (fun m => ?_) fun _ _ _ => rfl
      cases q.model.key (m.setting? q.model.keyName) with
      | error e => exact Act.within_pure _
      | ok key =>
          refine (Act.log_reading _ _).bind fun _ => (Act.log_reading _ _).bind fun _ => ?_
          cases q.model.provider.dialect.request base key q with
          | error e => exact Act.within_pure _
          | ok request =>
              refine (Http.send_reading _ _).bind fun r => ?_
              cases r with
              | error e => exact Act.within_pure _
              | ok response => exact readAnswer_reading _ _

/-- The events are an exchange about the question: over the network nothing but requests, in a
rehearsal the question alone. -/
def IsExchange (q : Question) (source : ModelSource) (events : List Event) : Prop :=
  match source with
  | .network => ∀ e ∈ events, ∃ request outcome, e = .sent request outcome
  | .rehearsal _ => events = [.asked q]

/-- What is done for an answer where this machine takes its answers from. -/
def answerOn (timeout : Duration) (q : Question) (m : Machine) :
    Act (Option (Except ServiceFault String)) :=
  match m.models with
  | .network => some <$> q.askNetwork timeout
  | .rehearsal reply => do
    note (.asked q)
    match reply m.questionsAsked with
    | .given delay answer => do
      pass delay
      pure (some answer)
    | .interrupted => pure none

/-- Asking notes the question and then gets the answer on the machine as it is then. -/
lemma ask_eq (timeout : Duration) (q : Question) : q.ask timeout = (do
    note (.consulted q)
    let m ← get
    q.answerOn timeout m) := rfl

/-- The reply of a rehearsal is found by the number of questions that were asked before. -/
lemma answerOn_withJournal (timeout : Duration) (q : Question) {m : Machine} {j : List Event}
    (hj : m.CountsAs j) : q.answerOn timeout (m.withJournal j) = q.answerOn timeout m := by
  have hmodels : (m.withJournal j).models = m.models := rfl
  simp only [answerOn, hmodels, hj.questions]

/-- Of reading nothing is told but requests with their outcomes. -/
lemma told_of_reading {d : Disk} {t : Trace} (h : reading.Permits d t) :
    ∀ e ∈ Event.told t.events, ∃ request outcome, e = .sent request outcome := by
  intro e he
  obtain ⟨hmem, hnot⟩ := List.mem_filter.mp he
  have hevent := h.events e hmem
  cases e with
  | sent request outcome => exact ⟨request, outcome, rfl⟩
  | logged => simp [Event.isAside] at hnot
  | _ => exact hevent.elim

/-- Getting an answer leaves the disk as it is and tells an exchange with the model. -/
lemma answerOn_leaves (timeout : Duration) (q : Question) (m : Machine) :
    ∃ a t, (q.answerOn timeout m).Leaves m a t ∧ t.disk = m.disk ∧
      q.IsExchange m.models (Event.told t.events) := by
  unfold answerOn IsExchange
  cases m.models with
  | network =>
      obtain ⟨a, t, ht, hpermits⟩ := ((askNetwork_reading timeout q).bind
        fun a => Act.within_pure (some a)) m
      exact ⟨a, t, ht, hpermits.disk.symm, told_of_reading hpermits⟩
  | rehearsal reply =>
      have hnote := leaves_note (.asked q) m
      dsimp only
      cases reply m.questionsAsked with
      | given delay answer =>
          have hpass := leaves_pass delay (m.after ⟨0, [.asked q], m.disk⟩)
          exact ⟨some answer, _, hnote.bind (hpass.bind (Act.leaves_pure _ _)), rfl, rfl⟩
      | interrupted =>
          exact ⟨none, .andThen ⟨0, [.asked q], m.disk⟩ ⟨0, [], _⟩,
            hnote.bind (Act.leaves_pure _ _), rfl, rfl⟩

/-- The events are one call of a model: the question is put, and an exchange about it follows. -/
def IsCall (q : Question) (source : ModelSource) (events : List Event) : Prop :=
  ∃ exchange, events = .consulted q :: exchange ∧ q.IsExchange source exchange

/-- **Asking is one call of the model.** -/
lemma ask_leaves (timeout : Duration) (q : Question) (m : Machine) :
    ∃ a t, (q.ask timeout).Leaves m a t ∧ t.disk = m.disk ∧
      q.IsCall m.models (Event.told t.events) := by
  obtain ⟨a, t, ht, hdisk, hexchange⟩ :=
    answerOn_leaves timeout q (m.after ⟨0, [.consulted q], m.disk⟩)
  have hask := leaves_get_bind ht fun j hj => answerOn_withJournal timeout q hj
  rw [ask_eq]
  exact ⟨a, _, (leaves_note _ m).bind hask, hdisk, _, rfl, hexchange⟩

end Question

/-! ### Results -/

namespace Delivery

/-- Printing happens backstage. -/
lemma print_backstage (text : String) : Command.Within backstage (print text) :=
  Command.within_get_bind (fun _ => Command.write_within _ _ ⟨rfl, rfl⟩) fun _ _ _ => rfl

/-- Storing a text happens backstage. -/
lemma store_backstage (path text : String) : Command.Within backstage (store path text) :=
  within_orFail (storeText_backstage path text) _

/-- Delivering a result happens backstage, wherever it goes. -/
lemma deliver_backstage (text : String) (destination : Option String) (locator : String)
    (operation : Operation) :
    Command.Within backstage (deliver text destination locator operation) := by
  unfold deliver
  cases destination with
  | none => exact (print_backstage text).bind fun _ => Command.within_pure _
  | some destination =>
      refine Command.within_get_bind (fun m => ?_) fun _ _ _ => rfl
      refine (store_backstage _ _).bind fun _ => ?_
      exact (Command.log_backstage _ _).bind fun _ => Command.within_pure _

end Delivery

/-! ### Desks and sessions -/

namespace Desk

/-- What asking for a prepared review gives when this is the answer to its question. -/
def answered (p : Prepared) : Option (Except ServiceFault String) → Except Failure String
  | none => .error .cancelled
  | some (.ok text) => .ok text
  | some (.error f) => .error (refused p.model f)

/-- **Nothing is told of asking but the call of the model**; the spinner stands aside. -/
lemma ask_leaves (timeout : Duration) (p : Prepared) {m : Machine}
    {a : Option (Except ServiceFault String)} {t : Trace}
    (h : (p.question.ask timeout).Leaves m a t) :
    ∃ t', Command.Leaves (ask timeout p) m (answered p a) t' ∧
      Event.told t'.events = Event.told t.events ∧ t'.disk = t.disk := by
  obtain ⟨spinner, t₁, hstart, haside₁⟩ := Terminal.Spinner.start_aside (p.operation.emoji ++
    " Running " ++ p.operation.name ++ " with " ++ p.model.name ++ " (" ++ p.model.provider.name ++
    ")") m
  have hask := h.after_aside haside₁
  cases a with
  | none =>
      refine ⟨t₁.andThen (t.andThen ⟨0, [], t.disk⟩), ?_, ?_, rfl⟩
      · refine Command.leaves_get_bind ?_ fun _ _ => rfl
        exact (leaves_lift hstart).bind ((leaves_lift hask).bind (leaves_throw _ _))
      · simp only [Trace.andThen, Event.told_append, haside₁.told, List.nil_append,
          List.append_nil]
  | some answer =>
      obtain ⟨_, t₂, hturn, haside₂⟩ := Terminal.Spinner.turn_aside spinner
        (((m.after t₁).after t).clock - m.clock) ((m.after t₁).after t)
      have htold : ∀ t₃, aside.Permits t₂.disk t₃ →
          Event.told (t₁.andThen (t.andThen (t₂.andThen t₃))).events = Event.told t.events := by
        intro t₃ haside₃
        simp only [Trace.andThen, Event.told_append, haside₁.told, haside₂.told, haside₃.told,
          List.nil_append, List.append_nil]
      -- the spinner ends with good or bad news, which stands aside in either case
      cases answer with
      | ok text =>
          obtain ⟨s, t₃, hend, haside₃⟩ := Terminal.Spinner.succeed_aside spinner
            (p.operation.name ++ " finished in " ++ Duration.seconds
              (((m.after t₁).after t).clock - m.clock) ++ "s") (((m.after t₁).after t).after t₂)
          refine ⟨t₁.andThen (t.andThen (t₂.andThen t₃)), ?_, htold t₃ haside₃,
            (haside₂.disk.trans haside₃.disk).symm⟩
          refine Command.leaves_get_bind ?_ fun _ _ => rfl
          refine (leaves_lift hstart).bind ((leaves_lift hask).bind ?_)
          refine Command.leaves_get_bind ?_ fun _ _ => rfl
          exact (leaves_lift hturn).bind ((leaves_lift hend).bind_pure fun _ => text)
      | error f =>
          obtain ⟨s, t₃, hend, haside₃⟩ := Terminal.Spinner.fail_aside spinner
            (p.operation.name ++ " failed") (((m.after t₁).after t).after t₂)
          refine ⟨t₁.andThen (t.andThen (t₂.andThen (t₃.andThen ⟨0, [], t₃.disk⟩))), ?_, ?_,
            (haside₂.disk.trans haside₃.disk).symm⟩
          · refine Command.leaves_get_bind ?_ fun _ _ => rfl
            refine (leaves_lift hstart).bind ((leaves_lift hask).bind ?_)
            refine Command.leaves_get_bind ?_ fun _ _ => rfl
            exact (leaves_lift hturn).bind ((leaves_lift hend).bind (leaves_throw _ _))
          · rw [Trace.andThen_nothing]
            exact htold t₃ haside₃

/-- A call of a model shows nothing in the console. -/
lemma offstage_of_isCall {q : Question} {source : ModelSource} {d : Disk} {t : Trace}
    (h : q.IsCall source (Event.told t.events)) : offstage.Permits d t := by
  refine ⟨fun e he => ?_, trivial, trivial⟩
  obtain ⟨exchange, htold, hexchange⟩ := h
  by_cases haside : e.isAside = true
  · cases e with
    | logged => rfl
    | drawn => rfl
    | _ => cases haside
  · have hmem : e ∈ Event.told t.events := List.mem_filter.mpr ⟨he, by simpa using haside⟩
    rw [htold, List.mem_cons] at hmem
    rcases hmem with rfl | hmem
    · rfl
    · cases source with
      | network =>
          obtain ⟨request, outcome, rfl⟩ := hexchange e hmem
          rfl
      | rehearsal reply =>
          have hasked : exchange = [.asked q] := hexchange
          rw [hasked, List.mem_singleton] at hmem
          rw [hmem]
          rfl

/-- Asking under a spinner happens offstage. -/
lemma ask_offstage (timeout : Duration) (p : Prepared) :
    Command.Within offstage (ask timeout p) := by
  intro m
  obtain ⟨a, t, ht, -, hcall⟩ := p.question.ask_leaves timeout m
  obtain ⟨t', ht', htold, -⟩ := ask_leaves timeout p ht
  rw [← htold] at hcall
  exact ⟨answered p a, t', ht', offstage_of_isCall hcall⟩

/-- Asking and delivering happens offstage. -/
lemma serve_offstage (timeout : Duration) (p : Prepared) (i : Invocation) :
    Command.Within offstage (serve timeout p i) :=
  (ask_offstage timeout p).bind fun _ =>
    (Delivery.deliver_backstage _ _ _ _).mono fun _ _ => offstage_of_backstage

/-- Submitting a review happens offstage. -/
lemma submit_offstage (d : Desk) (p : Prepared) (i : Invocation) :
    (d.submit p i).Within offstage := by
  have hask : d.askLimiter.Within offstage := by
    unfold askLimiter
    refine Act.within_get_bind (fun m => ?_) fun _ _ _ => rfl
    exact (within_note rfl).bind fun _ => Act.within_pure _
  unfold submit
  refine hask.bind fun r => ?_
  rcases r with ⟨retryAfter | _, d'⟩
  · exact Act.Within.bind (serve_offstage _ p i) fun _ => Act.within_pure _
  · exact (within_note rfl).bind fun _ => Act.within_pure _

/-- Submitting a review happens offstage even where it waits. -/
lemma submitPatiently_offstage (all : ℕ) (p : Prepared) (i : Invocation) (waits : ℕ) (d : Desk) :
    (submitPatiently all p i waits d).Within offstage := by
  induction waits generalizing d with
  | zero => exact submit_offstage d p i
  | succ waits ih =>
      unfold submitPatiently
      refine (submit_offstage d p i).bind fun r => ?_
      rcases r with ⟨f | delivery, d'⟩
      · cases f with
        | rateLimited retryAfter =>
            refine (within_note rfl).bind fun _ => (within_note rfl).bind fun _ => ?_
            exact (within_pass trivial).bind fun _ => ih d'
        | _ => exact Act.within_pure _
      · exact Act.within_pure _

end Desk

namespace Session

/-- The main points of a configuration are told, and nothing else is done. -/
lemma summarize_within (hlog : ∀ text, L.event (.logged .info text)) (c : Config) :
    (summarize c).Within L := by
  have hnote : ∀ text, (Act.log .info text).Within L := fun text => within_note (hlog text)
  unfold summarize
  refine Act.within_get_bind (fun m => ?_) fun _ _ _ => rfl
  refine (hnote _).bind fun _ => (hnote _).bind fun _ => ?_
  refine (within_forM _ fun _ _ => hnote _).bind fun _ => ?_
  exact (hnote _).bind fun _ => (hnote _).bind fun _ => hnote _

/-- Summing up a configuration only logs. -/
lemma summarize_logging (c : Config) : (summarize c).Within logging :=
  summarize_within (fun _ => rfl) c

/-- Read a configuration and report on it, as `init` does in the end. -/
def examine (path : String) : Command Unit := do
  let c ← tryCatch (Config.read path) fun f => do
    Act.log .error "💡 Run 'reverse-engineer init --write-sample' to create a configuration file."
    throw f
  summarize c
  let verdict := Config.verdict (← get) c
  verdict.report
  if !verdict.isValid then throw (Config.invalid path verdict.problems)

/-- Examining a configuration only logs. -/
lemma examine_logging (path : String) : Command.Within logging (examine path) := by
  unfold examine
  refine ((Config.read_logging path).tryCatch fun f =>
    (Command.log_logging _ _).bind fun _ => within_throw f).bind fun c => ?_
  refine (within_lift (summarize_logging c)).bind fun _ => ?_
  refine Command.within_get_bind (fun m => ?_) fun _ _ _ => rfl
  refine (within_lift (Config.report_logging _)).bind fun _ => ?_
  exact Command.Within.ite (within_throw _) (Command.within_pure _)

/-- Examining a configuration is reading. -/
lemma examine_reading (path : String) : Command.Within reading (examine path) :=
  (examine_logging path).mono fun _ _ => reading_of_logging

/-- Without the sample, a configuration is only examined. -/
lemma init_logging (path : String) : Command.Within logging (init path false) :=
  (Command.log_logging _ _).bind fun _ => examine_logging path

/-- Checking a configuration, and writing the sample, does not load it for a session. -/
lemma init_backstage (path : String) (writeSample : Bool) :
    Command.Within backstage (init path writeSample) := by
  have hrest := (examine_reading path).mono fun _ _ => backstage_of_reading
  unfold init
  refine (Command.log_backstage _ _).bind fun _ => Command.Within.ite ?_ hrest
  exact (Config.createSample_backstage path).bind fun _ =>
    Command.Within.sometimes (Command.log_backstage _ _) hrest

/-- Showing text in the console notes no deed. -/
lemma display_silent (text : String) (flush : Bool) :
    Command.Within silent (display text flush) :=
  Command.within_get_bind (fun _ => Command.write_within _ _ rfl) fun _ _ _ => rfl

/-- Saying goodbye is allowed while reading. -/
lemma part_reading (r : Except Failure Unit) : (part r).Within reading := by
  cases r with
  | ok a => exact Act.log_reading _ _
  | error f => exact Act.within_pure _

/-- Opening a desk is reading, with a note about it. -/
lemma openDesk_within (hreading : ∀ d t, reading.Permits d t → L.Permits d t)
    (hloaded : ∀ path config, L.event (.loaded path config)) (s : Session) :
    s.openDesk.Within L := by
  unfold openDesk
  cases s.desk with
  | some d => exact Act.within_pure _
  | none =>
      have hload : Command.Within L (Config.load s.configPath) :=
        (Config.load_reading _).mono hreading
      refine Act.Within.bind hload fun r => ?_
      exact (within_note (hloaded _ _)).bind fun _ => Act.within_pure _

/-- Opening a desk happens offstage. -/
lemma openDesk_offstage (s : Session) : s.openDesk.Within offstage :=
  openDesk_within (fun _ _ => offstage_of_reading) (fun _ _ => rfl) s

/-- A review happens offstage. -/
lemma review_offstage (s : Session) (wait : Bool) (i : Invocation) :
    (s.review wait i).Within offstage := by
  unfold review
  refine (openDesk_offstage s).bind fun r => ?_
  cases r with
  | error f => exact Act.within_pure _
  | ok d =>
      have hprepare : Command.Within offstage (i.prepare d.config) :=
        (i.prepare_reading _).mono fun _ _ => offstage_of_reading
      refine Act.Within.bind hprepare fun r => ?_
      cases r with
      | error f => exact Act.within_pure _
      | ok p => exact (Desk.submitPatiently_offstage _ _ _ _ _).bind fun _ => Act.within_pure _

/-- Whatever is ordered happens offstage. -/
lemma carryOut_offstage (s : Session) (wait : Bool) (initPath : String)
    (order : CommandLine.Order) : (s.carryOut wait initPath order).Within offstage := by
  unfold carryOut
  cases order with
  | init writeSample =>
      have hinit : Command.Within offstage (init initPath writeSample) :=
        (init_backstage _ _).mono fun _ _ => offstage_of_backstage
      exact Act.Within.bind hinit fun _ => Act.within_pure _
  | review i =>
      refine (s.review_offstage wait i).bind fun r => ?_
      rcases r with ⟨f | delivery, s'⟩
      · exact Act.within_pure _
      · cases delivery with
        | saved path => exact (within_note rfl).bind fun _ => Act.within_pure _
        | printed => exact Act.within_pure _

/-- Around an order nothing is done but to note how long it took. -/
lemma run_within_of_carryOut (hlog : ∀ level text, L.event (.logged level text)) {s : Session}
    {wait : Bool} {initPath : String} {order : CommandLine.Order}
    (h : (s.carryOut wait initPath order).Within L) : (s.run wait initPath order).Within L := by
  unfold run
  refine Act.within_get_bind (fun m => ?_) fun _ _ _ => rfl
  refine h.bind fun r => ?_
  obtain ⟨r, s'⟩ := r
  have hreport : Act.Within L (do
      let elapsed := (← get).clock - m.clock
      Act.log .info ("⏱️  Command completed in " ++ Duration.seconds elapsed ++ "s")
      pure (r, s')) := by
    refine Act.within_get_bind (fun m' => ?_) fun _ _ _ => rfl
    exact (within_note (hlog _ _)).bind fun _ => Act.within_pure _
  cases r with
  | ok a => exact hreport
  | error f =>
      cases f with
      | cancelled => exact Act.within_pure _
      | _ => exact hreport

/-- **Whatever order a session carries out, it leaves a trace**, and shows nothing. -/
lemma run_offstage (s : Session) (wait : Bool) (initPath : String) (order : CommandLine.Order) :
    (s.run wait initPath order).Within offstage :=
  run_within_of_carryOut (fun _ _ => rfl) (s.carryOut_offstage wait initPath order)

/-- An order to check a configuration only adds to the log. -/
lemma run_init_logging (s : Session) (wait : Bool) (initPath : String) :
    (s.run wait initPath (.init false)).Within logging := by
  refine run_within_of_carryOut (fun _ _ => rfl) ?_
  exact Act.Within.bind (init_logging initPath) fun _ => Act.within_pure _

end Session

end CodeReview

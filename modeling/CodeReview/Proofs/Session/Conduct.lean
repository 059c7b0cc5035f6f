import CodeReview.Proofs.Machine.Quiet
import CodeReview.Proofs.Session.Course

/-!
# Sessions keep to their course

Each command of a session is followed from the machine that it finds to the one that it leaves:
the session takes a course on the way, and the journal has the deeds of that course.  A review
takes the steps; all other commands only let time pass or turn the session to another path.
-/

namespace CodeReview

open Machine Act Command

variable {α β : Type}

/-! ### One question -/

/-- One question was put to a model, and nothing else that bears on the quota was done. -/
def Machine.Consulted (q : Question) (m m' : Machine) : Prop :=
  m'.deeds = m.deeds ++ [.consulted q] ∧ m.clock ≤ m'.clock

/-- What is silent before a question leaves it the only one. -/
lemma Machine.Silent.consulted {q : Question} {m₁ m₂ m₃ : Machine} (h : m₁.Silent m₂)
    (h' : m₂.Consulted q m₃) : m₁.Consulted q m₃ :=
  ⟨by rw [h'.1, h.1], Nat.le_trans h.2 h'.2⟩

/-- What is silent after a question leaves it the only one. -/
lemma Machine.Consulted.silent {q : Question} {m₁ m₂ m₃ : Machine} (h : m₁.Consulted q m₂)
    (h' : m₂.Silent m₃) : m₁.Consulted q m₃ :=
  ⟨h'.1.trans h.1, Nat.le_trans h.2 h'.2⟩

/-- Steps without a deed may come before the question ... -/
lemma Command.Keeps.before_question {q : Question} {act : Act α} {f : α → Command β}
    (h : act.Keeps Silent) (hf : ∀ a, Keeps (Consulted q) (f a)) :
    Keeps (Consulted q) (liftM act >>= f) := Act.Keeps.comp h hf Silent.consulted

/-- ... and after it. -/
lemma Command.Keeps.after_question {q : Question} {c : Command α} {f : α → Command β}
    (h : Keeps (Consulted q) c) (hf : ∀ a, Keeps Silent (f a)) :
    Keeps (Consulted q) (c >>= f) := by
  unfold Keeps
  rw [ExceptT.run_bind]
  refine Act.Keeps.comp h (fun r => ?_) Consulted.silent
  cases r with
  | ok a => exact hf a
  | error e => exact Act.keeps_pure _

/-- Asking puts the question. -/
lemma Question.ask_consulted (timeout : Duration) (q : Question) :
    (q.ask timeout).Keeps (Consulted q) := by
  have hnote : (Act.note (.consulted q)).Keeps (Consulted q) :=
    fun m => ⟨deeds_note m (.consulted q), Nat.le_refl _⟩
  unfold ask
  refine hnote.comp (fun _ => ?_) Consulted.silent
  refine Act.keeps_get.bind fun m => ?_
  cases m.models with
  | network =>
      exact (askNetwork_reading timeout q).keeps_quiet.silent.bind fun _ => Act.keeps_pure _
  | rehearsal reply =>
      refine (Act.within_note rfl).keeps_silent.bind fun _ => ?_
      cases reply m.questionsAsked with
      | given delay answer =>
          exact (Act.within_pass trivial).keeps_silent.bind fun _ => Act.keeps_pure _
      | interrupted => exact Act.keeps_pure _

namespace Desk

/-- Asking under a spinner puts the question. -/
lemma ask_consulted (timeout : Duration) (p : Prepared) :
    Command.Keeps (Consulted p.question) (ask timeout p) := by
  unfold ask
  refine Command.Keeps.before_question Act.keeps_get fun m => ?_
  have hstart : ∀ text, (Terminal.Spinner.start text).Keeps Silent :=
    fun text => (Terminal.Spinner.start_aside text).keeps_quiet.silent
  refine Command.Keeps.before_question (hstart _) fun spinner => ?_
  refine (keeps_lift (p.question.ask_consulted timeout)).after_question fun answer => ?_
  cases answer with
  | none => exact keeps_throw _
  | some answer =>
      refine (keeps_lift Act.keeps_get).bind fun m' => ?_
      refine (keeps_lift (spinner.turn_aside _).keeps_quiet.silent).bind fun _ => ?_
      cases answer with
      | ok text =>
          exact (keeps_lift (spinner.succeed_aside _).keeps_quiet.silent).bind fun _ =>
            Command.keeps_pure _
      | error f =>
          exact (keeps_lift (spinner.fail_aside _).keeps_quiet.silent).bind fun _ =>
            keeps_throw _

/-- Asking and delivering puts the question. -/
lemma serve_consulted (timeout : Duration) (p : Prepared) (i : Invocation) :
    Command.Keeps (Consulted p.question) (serve timeout p i) := by
  refine (ask_consulted timeout p).after_question fun text => ?_
  have hdeliver := Delivery.deliver_backstage text i.output i.locator p.operation
  exact (hdeliver.mono fun _ _ => Licence.silent_of_backstage).keeps_silent

end Desk

namespace Session

/-! ### Following a course -/

/-- The session goes from one machine to another along a course, and notes its deeds. -/
def Follows (s : Session) (m : Machine) (s' : Session) (m' : Machine) : Prop :=
  ∃ ds, m'.deeds = m.deeds ++ ds ∧ Course (s, m.clock) ds (s', m'.clock)

/-- Courses are followed one after the other. -/
lemma Follows.trans {s₁ s₂ s₃ : Session} {m₁ m₂ m₃ : Machine} (h : s₁.Follows m₁ s₂ m₂)
    (h' : s₂.Follows m₂ s₃ m₃) : s₁.Follows m₁ s₃ m₃ := by
  obtain ⟨ds, hdeeds, hcourse⟩ := h
  obtain ⟨ds', hdeeds', hcourse'⟩ := h'
  exact ⟨ds ++ ds', by rw [hdeeds', hdeeds, List.append_assoc], hcourse.trans hcourse'⟩

/-- What is silent follows a course without deeds. -/
lemma follows_of_silent (s : Session) {m m' : Machine} (h : m.Silent m') : s.Follows m s m' :=
  ⟨[], by rw [h.1, List.append_nil], (Step.elapse s h.2).course⟩

/-- A step that is taken at the clock's reading, and then time. -/
lemma Step.follows {s s' : Session} {m m' : Machine} {ds : List Deed}
    (h : Step (s, m.clock) ds (s', m.clock)) (hdeeds : m'.deeds = m.deeds ++ ds)
    (hclock : m.clock ≤ m'.clock) : s.Follows m s' m' := by
  refine ⟨ds, hdeeds, ?_⟩
  have hcourse := h.course.trans (Step.elapse s' hclock).course
  rwa [List.append_nil] at hcourse

/-- What is done to something in which a session is seen takes that session along a course. -/
def Conducts {σ : Type} (view : σ → Session) (x : σ) (act : Act (α × σ)) : Prop :=
  ∀ m, (view x).Follows m (view (act.run m).1.2) (act.run m).2

section conducts

variable {σ : Type} {view : σ → Session} {x : σ}

/-- Doing nothing follows a course. -/
lemma conducts_pure (a : α) : Conducts view x (pure (a, x)) :=
  fun m => follows_of_silent _ (refl_of Silent m)

/-- What comes next finds a desk that was open before still open. -/
lemma Conducts.bind_of_persists {act : Act (α × σ)} {f : α × σ → Act (β × σ)}
    (h : Conducts view x act)
    (hf : ∀ a y, (view x).Persists (view y) → Conducts view y (f (a, y))) :
    Conducts view x (act >>= f) := by
  intro m
  obtain ⟨ds, hdeeds, hcourse⟩ := h m
  exact Follows.trans ⟨ds, hdeeds, hcourse⟩ (hf _ _ hcourse.persists _)

/-- Acts that follow courses follow one together. -/
lemma Conducts.bind {act : Act (α × σ)} {f : α × σ → Act (β × σ)} (h : Conducts view x act)
    (hf : ∀ a y, Conducts view y (f (a, y))) : Conducts view x (act >>= f) :=
  h.bind_of_persists fun a y _ => hf a y

/-- What bears on no quota may come first. -/
lemma Conducts.after {act : Act α} {f : α → Act (β × σ)} (h : act.Keeps Silent)
    (hf : ∀ a, Conducts view x (f a)) : Conducts view x (act >>= f) :=
  fun m => (follows_of_silent _ (h m)).trans (hf _ _)

/-- What is silent follows a course, whatever its result is. -/
lemma conducts_of_keeps {act : Act α} (h : act.Keeps Silent) :
    Conducts view x (do pure (← act, x)) := Conducts.after h fun _ => conducts_pure _

end conducts

/-- The session with a desk that is open. -/
def withDesk (s : Session) (d : Desk) : Session := { s with desk := some d }

end Session

/-! ### The desk -/

namespace Desk

open Session

/-- Asking the limiter decides at the time of the machine, and notes it. -/
lemma askLimiter_run (d : Desk) (m : Machine) : d.askLimiter.run m =
    (((d.limiter.check m.clock).1, { d with limiter := (d.limiter.check m.clock).2 }),
      m.note (.decided m.clock (d.limiter.check m.clock).1)) := rfl

/-- A submission that is admitted is noted as the decision together with the question. -/
lemma submit_of_allowed {d : Desk} {m : Machine} (h : (d.limiter.check m.clock).1 = .allowed)
    (p : Prepared) (i : Invocation) : ((d.submit p i).run m).2.deeds =
        m.deeds ++ [.decided m.clock .allowed, .consulted p.question] ∧
      m.clock ≤ ((d.submit p i).run m).2.clock ∧
      ((d.submit p i).run m).1.2 = { d with limiter := (d.limiter.check m.clock).2 } := by
  have hserve := serve_consulted d.config.requestTimeout p i (m.note (.decided m.clock .allowed))
  have hdeeds := hserve.1
  rw [deeds_note, List.append_assoc] at hdeeds
  unfold submit
  rw [StateT.run_bind, askLimiter_run, h]
  exact ⟨hdeeds, hserve.2, rfl⟩

/-- A submission is one decision of the limiter, with the question that it lets through. -/
lemma submit_conducts (s : Session) {d : Desk} {p : Prepared}
    (hmodel : ∃ key, d.config.model? key = some p.model) (i : Invocation) :
    Conducts s.withDesk d (d.submit p i) := by
  intro m
  cases hd : (d.limiter.check m.clock).1 with
  | denied retryAfter =>
      unfold submit
      rw [StateT.run_bind, askLimiter_run, hd]
      have hlog := (Act.log_reading .debug
        ("🚦 Request denied, retry after " ++ retryAfter.seconds ++ "s")).keeps_quiet.silent
          (m.note (.decided m.clock (.denied retryAfter)))
      exact Step.follows (.denied _ _ _ hd) (hlog.1.trans (deeds_note _ _)) hlog.2
  | allowed =>
      obtain ⟨hdeeds, hclock, hdesk⟩ := submit_of_allowed hd p i
      rw [hdesk]
      exact Step.follows (.allowed _ _ _ p.question hmodel hd) hdeeds hclock

/-- Waiting takes time, and each new submission is a step of its own. -/
lemma submitPatiently_conducts (s : Session) (all : ℕ) {p : Prepared} (i : Invocation) (waits : ℕ)
    {d : Desk} (hmodel : ∃ key, d.config.model? key = some p.model) :
    Conducts s.withDesk d (submitPatiently all p i waits d) := by
  induction waits generalizing d with
  | zero => exact submit_conducts s hmodel i
  | succ waits ih =>
      unfold submitPatiently
      refine (submit_conducts s hmodel i).bind_of_persists fun r d' hpersists => ?_
      -- the desk has the model still, as its configuration is the same
      obtain ⟨-, d'', -, hdesk, hconfig, -⟩ := hpersists d rfl
      obtain rfl := Option.some.inj hdesk
      rw [← hconfig] at hmodel
      cases r with
      | ok delivery => exact conducts_pure _
      | error f =>
          cases f with
          | rateLimited retryAfter =>
              refine Conducts.after (Act.log_reading _ _).keeps_quiet.silent fun _ => ?_
              refine Conducts.after (Act.within_note rfl).keeps_silent fun _ => ?_
              exact Conducts.after (Act.within_pass trivial).keeps_silent fun _ => ih hmodel
          | _ => exact conducts_pure _

end Desk

/-! ### Commands -/

/-- What is prepared is a review of the operation that was asked for, by the model that was asked
for. -/
lemma Invocation.facts_of_prepare {i : Invocation} {c : Config} {p : Prepared} {m m' : Machine}
    (h : (i.prepare c).run.run m = (.ok p, m')) :
    p.operation = i.operation ∧ c.model? (i.model.getD c.defaultModel) = some p.model := by
  obtain ⟨model, m₁, hmodel, h⟩ := exists_of_run_bind h
  obtain ⟨source, m₂, -, h⟩ := exists_of_run_bind h
  obtain ⟨language, m₃, -, h⟩ := exists_of_run_bind h
  obtain ⟨prompt, m₄, -, h⟩ := exists_of_run_bind h
  obtain rfl := Except.ok.inj (congrArg Prod.fst h)
  refine ⟨rfl, ?_⟩
  have hresolve : c.resolve i.model = .ok model := congrArg Prod.fst hmodel
  unfold Config.resolve at hresolve
  cases hfound : c.model? (i.model.getD c.defaultModel) with
  | none =>
      simp only [hfound] at hresolve
      cases hresolve
  | some found =>
      simp only [hfound] at hresolve
      rw [Except.ok.inj hresolve]

/-- Only a configuration that keeps all rules is loaded. -/
lemma Config.problems_of_load {path : String} {m : Machine} {c : Config}
    (h : ((Config.load path).run.run m).1 = .ok c) : c.problems = [] := by
  unfold load at h
  rw [ExceptT.run_bind, StateT.run_bind] at h
  generalize (read path).run.run m = read at h
  obtain ⟨r, m'⟩ := read
  cases r with
  | error f => cases h
  | ok c' =>
      change ((if c'.problems.isEmpty then pure c' else throw _ : Command _).run.run m').1 = _ at h
      split_ifs at h with hempty
      · obtain rfl := Except.ok.inj h
        exact List.isEmpty_iff.mp hempty
      · cases h

namespace Session

/-- Where a desk is handed out, the session takes a course to having it open; else it stays. -/
lemma openDesk_follows (s : Session) (m : Machine) :
    match (s.openDesk.run m).1 with
    | .error _ => s.Follows m s (s.openDesk.run m).2
    | .ok d => s.Follows m (s.withDesk d) (s.openDesk.run m).2 := by
  obtain ⟨path, wait, desk⟩ := s
  cases desk with
  | some d => exact follows_of_silent _ (refl_of Silent m)
  | none =>
      -- the attempt is noted when it is over; loading itself notes nothing
      have hload := (Config.load_reading path).keeps_quiet.silent m
      have hvalid := @Config.problems_of_load path m
      unfold openDesk
      dsimp only
      rw [StateT.run_bind]
      generalize (Config.load path).run.run m = loaded at hload hvalid ⊢
      obtain ⟨r, m'⟩ := loaded
      have hdeeds : ∀ config, (m'.note (.loaded path config)).deeds =
          m.deeds ++ [.loaded path config] := by
        intro config
        rw [deeds_note, hload.1]
        rfl
      cases r with
      | error f => exact (Step.failed path wait m.clock).follows (hdeeds none) hload.2
      | ok c => exact (Step.opened path wait m.clock (hvalid rfl)).follows (hdeeds (some c)) hload.2

/-- A review follows a course. -/
lemma review_conducts (s : Session) (wait : Bool) (i : Invocation) :
    Conducts id s (s.review wait i) := by
  intro m
  have hopen := s.openDesk_follows m
  unfold review
  rcases hopened : s.openDesk.run m with ⟨f | d, m₁⟩
  · rw [hopened] at hopen
    rw [run_bind_of hopened]
    exact hopen
  · rw [hopened] at hopen
    rw [run_bind_of hopened]
    refine hopen.trans ?_
    have hprepare := (i.prepare_reading d.config).keeps_quiet.silent m₁
    dsimp only
    rcases hprepared : (i.prepare d.config).run.run m₁ with ⟨f | p, m₂⟩
    · rw [hprepared] at hprepare
      rw [run_bind_of hprepared]
      exact follows_of_silent _ hprepare
    · rw [hprepared] at hprepare
      rw [run_bind_of hprepared]
      have hmodel := (Invocation.facts_of_prepare hprepared).2
      refine (follows_of_silent _ hprepare).trans ?_
      exact Desk.submitPatiently_conducts s maxWaits i _ ⟨_, hmodel⟩ m₂

/-- Whatever is ordered follows a course. -/
lemma carryOut_conducts (s : Session) (wait : Bool) (initPath : String)
    (order : CommandLine.Order) : Conducts id s (s.carryOut wait initPath order) := by
  unfold carryOut
  cases order with
  | init writeSample =>
      have hinit := init_backstage initPath writeSample
      exact conducts_of_keeps (hinit.mono fun _ _ => Licence.silent_of_backstage).keeps_silent
  | review i =>
      refine (s.review_conducts wait i).bind fun r s' => ?_
      cases r with
      | error f => exact conducts_pure _
      | ok delivery =>
          cases delivery with
          | saved path =>
              exact Conducts.after (Act.log_reading _ _).keeps_quiet.silent fun _ => conducts_pure _
          | printed => exact conducts_pure _

/-- An order whose time is told follows a course. -/
lemma run_conducts (s : Session) (wait : Bool) (initPath : String) (order : CommandLine.Order) :
    Conducts id s (s.run wait initPath order) := by
  unfold run
  refine Conducts.after Act.keeps_get fun m => ?_
  refine (s.carryOut_conducts wait initPath order).bind fun r s' => ?_
  -- every end is reported but that of a command that the user interrupted
  have hlog : Conducts id s' (do
      let elapsed := (← get).clock - m.clock
      Act.log .info ("⏱️  Command completed in " ++ Duration.seconds elapsed ++ "s")
      pure (r, s')) :=
    Conducts.after Act.keeps_get fun m' =>
      Conducts.after (Act.log_reading _ _).keeps_quiet.silent fun _ => conducts_pure _
  cases r with
  | ok a => exact hlog
  | error f =>
      cases f with
      | cancelled => exact conducts_pure _
      | _ => exact hlog

/-- Only a session without a desk turns to another path. -/
lemma follows_of_switchConfig {s s' : Session} {line path : String}
    (h : s.switchConfig line path = .ok s') (m : Machine) : s.Follows m s' m := by
  unfold switchConfig at h
  split_ifs at h with hsame hdesk
  · obtain rfl := Except.ok.inj h
    exact s.follows_of_silent (refl_of Silent m)
  · obtain rfl := Except.ok.inj h
    obtain ⟨path₀, wait, desk⟩ := s
    cases desk with
    | none => exact (Step.turnTo path₀ path wait m.clock).follows (List.append_nil _).symm le_rfl
    | some d => exact absurd rfl hdesk

/-- A command that was typed follows a course. -/
lemma runTyped_conducts (s : Session) (line : String) (c : CommandLine.Line) :
    Conducts id s (s.runTyped line c) := by
  unfold runTyped
  dsimp only
  cases c.order with
  | none => exact conducts_pure _
  | some order =>
      cases order with
      | init writeSample => exact s.run_conducts _ _ _
      | review i =>
          dsimp only
          cases hswitch : c.configPath.elim (.ok s) (s.switchConfig line) with
          | error f => exact conducts_pure _
          | ok s' =>
              -- the line may turn the session to another path before its review
              intro m
              refine Follows.trans ?_ (s'.run_conducts _ _ _ m)
              cases hpath : c.configPath with
              | none =>
                  rw [hpath] at hswitch
                  obtain rfl := Except.ok.inj hswitch
                  exact s.follows_of_silent (refl_of Silent m)
              | some path =>
                  rw [hpath] at hswitch
                  exact follows_of_switchConfig hswitch m

/-- A line that is run follows a course. -/
lemma runLine_conducts (s : Session) (line : String) : Conducts id s (s.runLine line) := by
  unfold runLine
  cases CommandLine.words? line with
  | none => exact conducts_pure _
  | some words =>
      dsimp only
      cases CommandLine.parse words with
      | ok c => exact s.runTyped_conducts line c
      | error stop =>
          cases stop with
          | help topic => exact conducts_of_keeps (display_silent _ _).keeps_silent
          | fault f => exact conducts_pure _

/-- A line that is answered follows a course. -/
lemma answerLine_conducts (s : Session) (line : String) : Conducts id s (s.answerLine line) := by
  unfold answerLine
  dsimp only
  split_ifs
  · exact conducts_pure _
  · exact conducts_pure _
  · refine (s.runLine_conducts _).bind fun r s' => ?_
    cases r with
    | ok a => exact conducts_pure _
    | error f =>
        refine Conducts.after (Act.log_reading _ _).keeps_quiet.silent fun _ => ?_
        exact Conducts.after (display_silent _ _).keeps_silent fun _ => conducts_pure _

/-- **Every line of input takes the session along a course.** -/
lemma takeLine_conducts (s : Session) (line : List UInt8) : Conducts id s (s.takeLine line) := by
  unfold takeLine
  cases String.fromUTF8? ⟨line.toArray⟩ with
  | none => exact conducts_pure _
  | some text => exact s.answerLine_conducts text

end Session

end CodeReview

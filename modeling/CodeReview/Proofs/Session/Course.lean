import CodeReview.Proofs.Machine.Keeps
import CodeReview.Proofs.RateLimit.History
import CodeReview.Session.Basic

/-!
# The course of a session

`Session.Step` lists all that a session can do to its desk and its path, each with the deeds that
it notes, and `Session.Course` is a run of such steps.  What holds of every course holds of every
session, whatever commands it was given.

`OneDesk` is what the deeds of a session say about its desk: of all attempts to load a
configuration only the last one can have succeeded, the decisions are those of one limiter that
was fresh when the desk was opened, and every question was let through by a decision of its own.
`Course.kept` proves it for every course of a session that starts without a desk.
-/

namespace CodeReview

/-! ### Reading the deeds -/

namespace Deed

/-- The attempts to load a configuration: where, and what came of it. -/
def loads (ds : List Deed) : List (String × Option Config) :=
  ds.filterMap fun
    | .loaded path config => some (path, config)
    | _ => none

/-- The decisions of limiters. -/
def decisions (ds : List Deed) : List (Instant × Decision) :=
  ds.filterMap fun
    | .decided time decision => some (time, decision)
    | _ => none

/-- Every question comes right after a decision that allows it, and every such decision comes right
before a question. -/
def guarded : List Deed → Bool
  | [] => true
  | .loaded .. :: rest => guarded rest
  | .decided _ (.denied _) :: rest => guarded rest
  | .decided _ .allowed :: .consulted _ :: rest => guarded rest
  | _ => false

/-- The instants at which questions were let through: those of the decisions right before them. -/
def passes : List Deed → List Instant
  | [] => []
  | .decided time .allowed :: .consulted _ :: rest => time :: passes rest
  | _ :: rest => passes rest

/-- Loads are gathered part by part. -/
lemma loads_append (ds ds' : List Deed) : loads (ds ++ ds') = loads ds ++ loads ds' :=
  List.filterMap_append

/-- Decisions are gathered part by part. -/
lemma decisions_append (ds ds' : List Deed) :
    decisions (ds ++ ds') = decisions ds ++ decisions ds' := List.filterMap_append

/-- Deeds behind guarded ones are guarded if they are so alone. -/
lemma guarded_append {ds : List Deed} (h : guarded ds = true) (ds' : List Deed) :
    guarded (ds ++ ds') = guarded ds' := by
  fun_induction guarded ds with
  | case1 => rfl
  | case2 path config rest ih => exact ih h
  | case3 time wait rest ih => exact ih h
  | case4 time question rest ih => exact ih h
  | case5 => cases h

/-- Without decisions no question is let through. -/
lemma passes_of_decisions_nil (ds : List Deed) (h : decisions ds = []) : passes ds = [] := by
  fun_induction passes ds with
  | case1 => rfl
  | case2 time question rest ih => cases h
  | case3 d rest hne ih =>
      cases d with
      | loaded path config => exact ih h
      | decided time decision => cases h
      | consulted question => exact ih h

/-- Questions that were let through are gathered part by part, if they are guarded. -/
lemma passes_append {ds : List Deed} (h : guarded ds = true) (ds' : List Deed) :
    passes (ds ++ ds') = passes ds ++ passes ds' := by
  fun_induction guarded ds with
  | case1 => rfl
  | case2 path config rest ih => exact ih h
  | case3 time wait rest ih => exact ih h
  | case4 time question rest ih => exact congrArg (time :: ·) (ih h)
  | case5 => cases h

end Deed

namespace Session

/-! ### Steps -/

/-- What a session may do at an instant, with the deeds that it notes.  Without a desk it may turn
to another path and try to load the configuration there; with one it may ask the limiter, and then
has to put a question to a model of its configuration if and only if that is allowed. -/
inductive Step : Session × Instant → List Deed → Session × Instant → Prop where
  | elapse (s : Session) {now later : Instant} (h : now ≤ later) : Step (s, now) [] (s, later)
  | turnTo (path path' : String) (wait : Bool) (now : Instant) :
    Step (⟨path, wait, none⟩, now) [] (⟨path', wait, none⟩, now)
  | failed (path : String) (wait : Bool) (now : Instant) :
    Step (⟨path, wait, none⟩, now) [.loaded path none] (⟨path, wait, none⟩, now)
  | opened (path : String) (wait : Bool) (now : Instant) {c : Config} (h : c.problems = []) :
    Step (⟨path, wait, none⟩, now) [.loaded path (some c)] (⟨path, wait, some (.ofConfig c)⟩, now)
  | denied (path : String) (wait : Bool) (now : Instant) {d : Desk} {retryAfter : Duration}
    (h : (d.limiter.check now).1 = .denied retryAfter) :
    Step (⟨path, wait, some d⟩, now) [.decided now (.denied retryAfter)]
      (⟨path, wait, some { d with limiter := (d.limiter.check now).2 }⟩, now)
  | allowed (path : String) (wait : Bool) (now : Instant) {d : Desk} (question : Question)
    (hmodel : ∃ key, d.config.model? key = some question.model)
    (h : (d.limiter.check now).1 = .allowed) :
    Step (⟨path, wait, some d⟩, now) [.decided now .allowed, .consulted question]
      (⟨path, wait, some { d with limiter := (d.limiter.check now).2 }⟩, now)

/-- Steps one after the other, with all their deeds. -/
inductive Course : Session × Instant → List Deed → Session × Instant → Prop where
  | rest (a : Session × Instant) : Course a [] a
  | step {a b c : Session × Instant} {ds ds' : List Deed} :
    Course a ds b → Step b ds' c → Course a (ds ++ ds') c

variable {a b c : Session × Instant} {ds ds' : List Deed}

/-- A step is a course. -/
lemma Step.course (h : Step a ds b) : Course a ds b := (Course.rest a).step h

/-- Courses one after the other are a course. -/
lemma Course.trans (h : Course a ds b) (h' : Course b ds' c) : Course a (ds ++ ds') c := by
  induction h' with
  | rest => rwa [List.append_nil]
  | step _ hstep ih =>
      rw [← List.append_assoc]
      exact ih.step hstep

/-! ### What no step undoes -/

/-- A desk once open stays open: the path and the configuration remain, and the limiter has gone on
from where it was. -/
def Persists (s s' : Session) : Prop :=
  ∀ d, s.desk = some d → s'.configPath = s.configPath ∧
    ∃ d' times, s'.desk = some d' ∧ d'.config = d.config ∧ d'.limiter = (d.limiter.checks times).2

/-- A session persists as it is. -/
lemma Persists.refl (s : Session) : s.Persists s := fun d hd => ⟨rfl, d, [], hd, rfl, rfl⟩

/-- What persists twice persists. -/
lemma Persists.trans {s₁ s₂ s₃ : Session} (h : s₁.Persists s₂) (h' : s₂.Persists s₃) :
    s₁.Persists s₃ := by
  intro d hd
  obtain ⟨hpath, d', times, hd', hconfig, hlimiter⟩ := h d hd
  obtain ⟨hpath', d'', times', hd'', hconfig', hlimiter'⟩ := h' d' hd'
  refine ⟨hpath'.trans hpath, d'', times ++ times', hd'', hconfig'.trans hconfig, ?_⟩
  rw [Limiter.checks_append, hlimiter', hlimiter]

/-- No step undoes a desk. -/
lemma Step.persists (h : Step a ds b) : a.1.Persists b.1 := by
  intro d hd
  cases h with
  | elapse s h => exact Persists.refl _ d hd
  | turnTo => cases hd
  | failed => cases hd
  | opened => cases hd
  | denied path wait now h =>
      cases hd
      exact ⟨rfl, _, [now], rfl, rfl, rfl⟩
  | allowed path wait now question hmodel h =>
      cases hd
      exact ⟨rfl, _, [now], rfl, rfl, rfl⟩

/-- No course undoes a desk. -/
lemma Course.persists (h : Course a ds b) : a.1.Persists b.1 := by
  induction h with
  | rest => exact Persists.refl _
  | step _ hstep ih => exact ih.trans hstep.persists

end Session

/-! ### The desk that governs -/

/-- All deeds that ask for admission are the desk's own. -/
structure Desk.Governs (d : Desk) (ds : List Deed) : Prop where
  valid : d.config.problems = []
  /-- The limiter was fresh at first and took all decisions. -/
  decisions : (Limiter.fresh d.config.policy).checks ((Deed.decisions ds).map Prod.fst) =
    ((Deed.decisions ds).map Prod.snd, d.limiter)
  /-- No window holds more questions than the policy admits. -/
  window : d.config.policy.Respects (Deed.passes ds)

/-- At this instant the desk's limiter also still accounts for all questions that it let through. -/
structure Desk.GovernsUntil (d : Desk) (ds : List Deed) (now : Instant) : Prop extends
    d.Governs ds where
  policy : d.limiter.policy = d.config.policy
  accounts : d.limiter.Accounts (Deed.passes ds) now

namespace Desk

variable {d : Desk} {ds ds' : List Deed} {now : Instant}

/-- A desk that has just been opened governs deeds without decisions. -/
lemma governsUntil_ofConfig {c : Config} (hc : c.problems = []) (h : Deed.decisions ds = []) :
    (ofConfig c).GovernsUntil ds now := by
  have hpasses := Deed.passes_of_decisions_nil ds h
  refine ⟨⟨hc, ?_, ?_⟩, rfl, ?_⟩
  · rw [h]
    rfl
  · rw [hpasses]
    exact Limiter.respects_nil _
  · rw [hpasses]
    exact Limiter.accounts_fresh _ _

/-- What one decision of the limiter adds, with the question that it may let through. -/
lemma GovernsUntil.check (h : d.GovernsUntil ds now) (hguarded : Deed.guarded ds = true)
    (hdecisions : Deed.decisions ds' = [(now, (d.limiter.check now).1)])
    (hpasses : Deed.passes ds' = (d.limiter.check now).1.admitted now) :
    Desk.GovernsUntil { d with limiter := (d.limiter.check now).2 } (ds ++ ds') now := by
  have hpassed : Deed.passes (ds ++ ds') =
      Deed.passes ds ++ (d.limiter.check now).1.admitted now := by
    rw [Deed.passes_append hguarded, hpasses]
  refine ⟨⟨h.valid, ?_, ?_⟩, ?_, ?_⟩
  · rw [Deed.decisions_append, hdecisions, List.map_append, List.map_append]
    change (Limiter.fresh d.config.policy).checks (_ ++ [now]) = _
    rw [Limiter.checks_append, h.decisions]
    rfl
  · have hrespects := h.accounts.respects_check (Nat.le_refl now) (h.policy.symm ▸ h.window)
    rw [h.policy] at hrespects
    rwa [hpassed]
  · rw [Limiter.check_policy, h.policy]
  · rw [hpassed]
    exact h.accounts.check_self

end Desk

/-! ### One desk -/

namespace Session

/-- What the deeds of a session that started without a desk say about the desk that it has now. -/
structure OneDesk (s : Session) (ds : List Deed) : Prop where
  /-- Of all attempts to load a configuration only the last one can have succeeded, at the path that
  the session still has; its configuration is that of the desk. -/
  loads : ∃ failed : List String, Deed.loads ds =
    failed.map (·, none) ++ s.desk.toList.map fun d => (s.configPath, some d.config)
  /-- Questions and the decisions that let them through come in pairs. -/
  guarded : Deed.guarded ds = true
  undecided : s.desk = none → Deed.decisions ds = []
  governs : ∀ d, s.desk = some d → d.Governs ds

/-- One desk, with all that the next step has to know about it. -/
structure Kept (s : Session) (now : Instant) (ds : List Deed) : Prop extends OneDesk s ds where
  governsUntil : ∀ d, s.desk = some d → d.GovernsUntil ds now

variable {a b : Session × Instant} {ds ds' : List Deed} {path : String} {wait : Bool}

/-- A session that starts without a desk has kept everything. -/
lemma kept_start (path : String) (wait : Bool) (now : Instant) : Kept (start path wait) now [] :=
  ⟨⟨⟨[], rfl⟩, rfl, fun _ => rfl, fun _ hd => nomatch hd⟩, fun _ hd => nomatch hd⟩

/-- What one decision of the desk's limiter adds to a session. -/
lemma Kept.check {now : Instant} {d : Desk} (h : Kept ⟨path, wait, some d⟩ now ds)
    (hloads : Deed.loads ds' = []) (hguarded : Deed.guarded ds' = true)
    (hdecisions : Deed.decisions ds' = [(now, (d.limiter.check now).1)])
    (hpasses : Deed.passes ds' = (d.limiter.check now).1.admitted now) :
    Kept ⟨path, wait, some { d with limiter := (d.limiter.check now).2 }⟩ now (ds ++ ds') := by
  have hgoverns := (h.governsUntil d rfl).check h.guarded hdecisions hpasses
  refine ⟨⟨?_, ?_, ?_, ?_⟩, ?_⟩
  · rw [Deed.loads_append, hloads, List.append_nil]
    exact h.loads
  · rw [Deed.guarded_append h.guarded, hguarded]
  · intro hnone
    cases hnone
  · rintro _ ⟨⟩
    exact hgoverns.toGoverns
  · rintro _ ⟨⟩
    exact hgoverns

/-- **Every step keeps what is said of the one desk.** -/
lemma Kept.step (h : Kept a.1 a.2 ds) (hstep : Step a ds' b) : Kept b.1 b.2 (ds ++ ds') := by
  cases hstep with
  | elapse s hle =>
      rw [List.append_nil]
      refine { h with governsUntil := fun d hd => ?_ }
      have hgoverns := h.governsUntil d hd
      exact { hgoverns with accounts := hgoverns.accounts.mono hle }
  | turnTo path path' wait now =>
      rw [List.append_nil]
      exact ⟨⟨h.loads, h.guarded, h.undecided, fun _ hd => nomatch hd⟩, fun _ hd => nomatch hd⟩
  | failed path wait now =>
      obtain ⟨failed, hfailed⟩ := h.loads
      refine ⟨⟨⟨failed ++ [path], ?_⟩, ?_, ?_, fun _ hd => nomatch hd⟩, fun _ hd => nomatch hd⟩
      · rw [Deed.loads_append, hfailed]
        simp [Deed.loads]
      · exact Deed.guarded_append h.guarded _
      · intro hnone
        rw [Deed.decisions_append, h.undecided hnone]
        rfl
  | @opened path wait now c hc =>
      obtain ⟨failed, hfailed⟩ := h.loads
      -- nothing was decided before there was a desk, so that its fresh limiter takes all decisions
      have hdecisions : Deed.decisions (ds ++ [.loaded path (some c)]) = [] := by
        rw [Deed.decisions_append, h.undecided rfl]
        rfl
      have hgoverns : (Desk.ofConfig c).GovernsUntil (ds ++ [.loaded path (some c)]) now :=
        Desk.governsUntil_ofConfig hc hdecisions
      refine ⟨⟨⟨failed, ?_⟩, ?_, ?_, ?_⟩, ?_⟩
      · rw [Deed.loads_append, hfailed]
        simp [Deed.loads, Desk.ofConfig]
      · exact Deed.guarded_append h.guarded _
      · intro hnone
        cases hnone
      · rintro _ ⟨⟩
        exact hgoverns.toGoverns
      · rintro _ ⟨⟩
        exact hgoverns
  | denied path wait now hd => exact h.check rfl rfl (by rw [hd]; rfl) (by rw [hd]; rfl)
  | allowed path wait now question hmodel hd =>
      exact h.check rfl rfl (by rw [hd]; rfl) (by rw [hd]; rfl)

/-- **The deeds of a session that starts without a desk are those of one desk**, after every
course. -/
lemma Course.kept {start : Instant} (h : Course (.start path wait, start) ds b) :
    Kept b.1 b.2 ds := by
  induction h with
  | rest => exact kept_start path wait start
  | step _ hstep ih => exact ih.step hstep

end Session

end CodeReview

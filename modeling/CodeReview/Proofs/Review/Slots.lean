import CodeReview.Proofs.Model.Unasked
import CodeReview.Proofs.RateLimit.Nearness
import CodeReview.Proofs.Review.Obstacle
import CodeReview.Proofs.Review.Product
import CodeReview.Proofs.Session.Amid

/-!
# The slots that reviews take

The gate comes before the model, and nothing is given back: a review that is admitted has taken a
slot of the quota, whatever comes of it then.  A review whose model has no key is such a review.  It
ends as an error of the configuration and nothing is sent for it, but as long as no other request
for admission is made there is one slot less than there would be without it, until its window has
passed (`Desk.runAll_slots`); with a limit of one it makes the next review wait
(`Desk.not_unspent_of_keyless`).  Only reviews that are not admitted leave the quota as it is.

Reviews that come later may fare differently after such a review and without it, and so the two
quotas need not agree again.  But they are never more than one slot apart: a visit makes one check
at most, and what one check changes is known from ledgers that are near.
-/

namespace CodeReview

open Act Machine Text

/-! ### Submissions without a key -/

namespace Submission

variable {s : Submission}

/-- The limiter admits the submission, and then its model turns out to have no key: nothing can be
sent to the endpoint that it has. -/
structure Keyless (s : Submission) : Prop where
  admitted : s.decision = .allowed
  network : s.machine.models = .network
  endpoint : ∃ base, s.prepared.model.base = .ok base
  unset : ∀ value ∈ s.machine.setting? s.prepared.model.keyName, allBlank value = true

/-- The model is consulted, and that is all. -/
lemma Keyless.asking (h : s.Keyless) : s.asking =
    (some (.error s.prepared.model.keyFault), s.machine.note (.consulted s.prepared.question)) := by
  obtain ⟨base, hbase⟩ := h.endpoint
  have hkey := (s.prepared.model.key_eq_error_iff _).mpr h.unset
  have hask : (s.prepared.question.askNetwork s.desk.config.requestTimeout).run
      (s.machine.note (.consulted s.prepared.question)) =
        (.error s.prepared.model.keyFault, s.machine.note (.consulted s.prepared.question)) :=
    Question.askNetwork_run_of_no_key _ hbase hkey
  have hanswer : (s.prepared.question.ask s.desk.config.requestTimeout).run s.machine =
      ((s.prepared.question.answerOn s.desk.config.requestTimeout
        (s.machine.note (.consulted s.prepared.question))).run
          (s.machine.note (.consulted s.prepared.question))) := rfl
  have hnetwork : (s.machine.note (.consulted s.prepared.question)).models = .network := h.network
  rw [Submission.asking, hanswer, Question.answerOn]
  simp only [hnetwork]
  rw [StateT.run_map, hask]
  rfl

/-- **A review without a key is an error of the configuration**: nothing is sent for it, and nothing
is stored. -/
lemma Keyless.ends (h : s.Keyless) :
    s.result = .error (.configuration s.prepared.model.keyFault.reason (some "models") none) ∧
      s.events = [.decided s.machine.clock .allowed, .consulted s.prepared.question] ∧
      s.after.disk = s.machine.disk := by
  have hanswer : s.answer = some (.error s.prepared.model.keyFault) := by rw [answer, h.asking]
  have hcall : s.admission =
      [.decided s.machine.clock .allowed, .consulted s.prepared.question] := by
    rw [admission, call, h.asking, since, story, story, Machine.note, Event.told_append,
      List.drop_left]
    rfl
  have hends := s.ends.1
  generalize s.events = events at hends ⊢
  generalize s.result = r at hends ⊢
  generalize s.after.disk = disk at hends ⊢
  cases hends with
  | denied hdenied => cases h.admitted.symm.trans hdenied
  | cancelled _ hcancelled => cases hanswer.symm.trans hcancelled
  | refused _ hrefused =>
      obtain rfl := Except.error.inj (Option.some.inj (hanswer.symm.trans hrefused))
      exact ⟨rfl, hcall, rfl⟩
  | answered _ htext => cases hanswer.symm.trans htext

end Submission

/-! ### Reviews one after the other -/

/-- A review that is brought to a desk on a machine, not prepared yet. -/
structure Visit where
  desk : Desk
  machine : Machine
  invocation : Invocation

namespace Visit

variable (v : Visit)

/-- What comes of the visit. -/
def outcome : (Except Failure Delivery × Desk) × Machine :=
  (v.desk.run v.invocation).run v.machine

/-- What the visit ends as. -/
def result : Except Failure Delivery := v.outcome.1.1

/-- The desk that the visit leaves. -/
def deskAfter : Desk := v.outcome.1.2

/-- The machine that the visit leaves. -/
def after : Machine := v.outcome.2

/-- What the limiter answers after the visit, from its end on. -/
def answers (moves : List Gate.Move) : List (Instant × Gate.Answer) :=
  Limiter.gate.answers v.deskAfter.limiter v.after.clock moves

/-- What the limiter would answer at the same times, had the visit not been made. -/
def answersWithout (moves : List Gate.Move) : List (Instant × Gate.Answer) :=
  Limiter.gate.answers v.desk.limiter v.after.clock moves

/-- The limiter and the time after the visit and further moves. -/
def later (moves : List Gate.Move) : Limiter × Instant :=
  Limiter.gate.after v.deskAfter.limiter v.after.clock moves

/-- The limiter and the time after the same moves, had the visit not been made. -/
def laterWithout (moves : List Gate.Move) : Limiter × Instant :=
  Limiter.gate.after v.desk.limiter v.after.clock moves

/-- The submission that comes of the visit, if the review can be prepared. -/
def submission? : Option Submission :=
  match (v.invocation.prepare v.desk.config).run.run v.machine with
  | (.ok p, gate) => some ⟨v.desk, gate, p, v.invocation⟩
  | (.error _, _) => none

/-- The slots that the visit takes at time `t`. -/
def slots (t : Instant) : ℕ :=
  v.submission?.elim 0 fun s => s.decision.slots v.desk.limiter.policy.window s.machine.clock t

variable {v} {s : Submission}

/-- A visit that comes to the gate does so at its desk, after some time. -/
lemma gate_of_some (h : v.submission? = some s) :
    v.outcome = s.outcome ∧ s.desk = v.desk ∧ v.machine.clock ≤ s.machine.clock := by
  unfold submission? at h
  rcases hprepared : (v.invocation.prepare v.desk.config).run.run v.machine with ⟨f | p, gate⟩
  · rw [hprepared] at h
    cases h
  · rw [hprepared] at h
    obtain rfl := Option.some.inj h
    obtain ⟨t, ht, -⟩ := (v.invocation.prepare_reading v.desk.config).allows v.machine
    refine ⟨run_bind_of hprepared, rfl, ?_⟩
    have hgate : gate = v.machine.after t := by
      rw [← ht]
      exact (congrArg Prod.snd hprepared).symm
    rw [hgate]
    exact Nat.le_add_right _ _

/-- A visit that comes to the gate ends as its submission does. -/
lemma ends_of_some (h : v.submission? = some s) :
    v.result = s.result ∧ v.deskAfter = s.deskAfter ∧ v.after = s.after := by
  have houtcome := (gate_of_some h).1
  rw [result, deskAfter, after, houtcome]
  exact ⟨rfl, rfl, rfl⟩

/-- A visit that the limiter denies at the gate ends as rate limited. -/
lemma result_of_denied {wait : Duration} (h : v.submission? = some s)
    (hdenied : s.decision = .denied wait) : v.result = .error (.rateLimited wait) :=
  (ends_of_some h).1.trans (s.ends.1.of_denied hdenied)

/-- A visit that does not come to the gate leaves the desk as it was. -/
lemma deskAfter_of_none (h : v.submission? = none) :
    v.deskAfter = v.desk ∧ v.machine.clock ≤ v.after.clock := by
  unfold submission? at h
  rcases hprepared : (v.invocation.prepare v.desk.config).run.run v.machine with ⟨f | p, gate⟩
  · have hrun := Desk.run_of_error (d := v.desk) (i := v.invocation) (m := v.machine) (f := f)
      (by rw [hprepared])
    obtain ⟨t, ht, -⟩ := (v.invocation.prepare_reading v.desk.config).allows v.machine
    refine ⟨congrArg (·.1.2) hrun, ?_⟩
    have hafter : v.after = v.machine.after t := (congrArg Prod.snd hrun).trans ht
    rw [hafter]
    exact Nat.le_add_right _ _
  · rw [hprepared] at h
    cases h

end Visit

namespace Desk

/-- Do one review after the other, each after an interlude. -/
def runAll (d : Desk) : List (Interlude × Invocation) → Act (List (Except Failure Delivery) × Desk)
  | [] => pure ([], d)
  | (before, i) :: rest => do
    modify before.act
    let (result, d) ← d.run i
    let (results, d) ← d.runAll rest
    pure (result :: results, d)

/-- The visits of such a run, each with the desk and the machine that it finds. -/
def visits (d : Desk) (m : Machine) : List (Interlude × Invocation) → List Visit
  | [] => []
  | (before, i) :: rest =>
    let v : Visit := ⟨d, before.act m, i⟩
    v :: v.deskAfter.visits v.after rest

/-- A single review is the visit that comes of it. -/
lemma mem_visits (d : Desk) (m : Machine) (i : Invocation) :
    ⟨d, m, i⟩ ∈ d.visits m [(.still, i)] := List.mem_singleton_self _

/-- The second of two reviews finds what the first one leaves. -/
lemma visits_pair (d : Desk) (m : Machine) (i i' : Invocation) :
    d.visits m [(.still, i), (.still, i')] = [⟨d, m, i⟩,
      ⟨Visit.deskAfter ⟨d, m, i⟩, Visit.after ⟨d, m, i⟩, i'⟩] := rfl

/-- What comes of a run is what comes of its visits. -/
lemma runAll_result (d : Desk) (m : Machine) (reviews : List (Interlude × Invocation)) :
    ((d.runAll reviews).run m).1.1 = (d.visits m reviews).map Visit.result := by
  induction reviews generalizing d m with
  | nil => rfl
  | cons review rest ih =>
      let v : Visit := ⟨d, review.1.act m, review.2⟩
      exact congrArg (v.result :: ·) (ih v.deskAfter v.after)

/-- The limiter of the desk has the policy of a configuration, and mirrors a ledger. -/
structure Accounts (c : Config) (d : Desk) (now : Instant) : Prop where
  policy : d.limiter.policy = c.policy
  ledger : ∃ k, d.limiter.Mirrors k now

variable {c : Config} {d : Desk} {now t : Instant}

/-- A new desk keeps account, of nothing so far. -/
lemma accounts_ofConfig (c : Config) (now : Instant) : (ofConfig c).Accounts c now :=
  ⟨rfl, .empty c.policy, Limiter.mirrors_fresh c.policy now⟩

/-- A desk keeps account while time passes. -/
lemma Accounts.later (h : d.Accounts c now) (hle : now ≤ t) : d.Accounts c t := by
  obtain ⟨hpolicy, k, hmirrors⟩ := h
  obtain ⟨span, rfl⟩ := Nat.exists_eq_add_of_le hle
  exact ⟨hpolicy, k, hmirrors.later span⟩

end Desk

namespace Visit

variable {c : Config} {v : Visit} {s : Submission}

/-- A visit that comes to the gate asks its desk's limiter once, and then it takes its time. -/
lemma check_of_some (h : v.submission? = some s) :
    v.deskAfter.limiter = (v.desk.limiter.check s.machine.clock).2 ∧
      v.machine.clock ≤ s.machine.clock ∧ s.machine.clock ≤ v.after.clock := by
  obtain ⟨-, hdesk, hclock⟩ := gate_of_some h
  obtain ⟨-, hleft, hsame⟩ := ends_of_some h
  obtain ⟨-, hlimiter, t', hafter⟩ := s.ends
  rw [hdesk] at hlimiter
  refine ⟨by rw [hleft, hlimiter], hclock, ?_⟩
  rw [hsame, hafter]
  exact Nat.le_add_right _ _

/-- **A visit takes a slot where it is admitted**, and else none; the desk keeps account of it. -/
lemma remaining (h : v.desk.Accounts c v.machine.clock) :
    v.deskAfter.Accounts c v.after.clock ∧ ∀ t, v.after.clock ≤ t →
      (v.deskAfter.limiter.remaining t).1 + v.slots t = (v.desk.limiter.remaining t).1 := by
  cases hsubmitted : v.submission? with
  | none =>
      obtain ⟨hdesk, hclock⟩ := deskAfter_of_none hsubmitted
      rw [hdesk]
      refine ⟨h.later hclock, fun t _ => ?_⟩
      rw [slots, hsubmitted]
      rfl
  | some s =>
      obtain ⟨-, hdesk, -⟩ := gate_of_some hsubmitted
      obtain ⟨hlimiter, hclock, hgate⟩ := check_of_some hsubmitted
      obtain ⟨hpolicy, k, hmirrors⟩ := h.later hclock
      rw [hlimiter]
      refine ⟨Desk.Accounts.later ⟨?_, _, hlimiter ▸ hmirrors.check.2⟩ hgate, fun t ht => ?_⟩
      · rw [hlimiter]
        exact (v.desk.limiter.check_policy s.machine.clock).trans hpolicy
      · rw [slots, hsubmitted, Option.elim_some, Submission.decision, hdesk]
        exact hmirrors.remaining_check (hgate.trans ht)

/-- **A visit makes one check at most.**  The limiters after it and without it mirror ledgers that
are near, and one ledger where it is not admitted. -/
lemma exists_ledgers (h : v.desk.Accounts c v.machine.clock) :
    ∃ k k', v.deskAfter.limiter.Mirrors k v.after.clock ∧
      v.desk.limiter.Mirrors k' v.after.clock ∧ k.Near k' v.after.clock ∧
      ((∀ s, v.submission? = some s → s.decision ≠ .allowed) → k = k') := by
  cases hsubmitted : v.submission? with
  | none =>
      obtain ⟨hdesk, hclock⟩ := deskAfter_of_none hsubmitted
      obtain ⟨-, k, hmirrors⟩ := h.later hclock
      exact ⟨k, k, hdesk.symm ▸ hmirrors, hmirrors, Ledger.near_self hmirrors.past, fun _ => rfl⟩
  | some s =>
      obtain ⟨-, hdesk, -⟩ := gate_of_some hsubmitted
      obtain ⟨hlimiter, hclock, hgate⟩ := check_of_some hsubmitted
      obtain ⟨-, k, hmirrors⟩ := h.later hclock
      obtain ⟨hdecision, hchecked⟩ := hmirrors.check
      obtain ⟨d, hd⟩ := Nat.exists_eq_add_of_le hgate
      rw [hd, hlimiter]
      refine ⟨_, k, hchecked.later d, hmirrors.later d, (Ledger.near_check hmirrors.past).later d,
        fun hnone => Ledger.check_of_ne_allowed ?_⟩
      rw [← hdecision, ← hdesk]
      exact hnone s rfl

/-- As long as no further check is made, the slots that a visit has taken stay taken. -/
lemma remaining_later {moves : List Gate.Move} {t : ℕ} (h : v.desk.Accounts c v.machine.clock)
    (hfree : .check ∉ moves) (ht : (v.later moves).2 ≤ t) :
    ((v.later moves).1.remaining t).1 + v.slots t = ((v.laterWithout moves).1.remaining t).1 := by
  obtain ⟨k, k', hmirrors, hmirrors', -, -⟩ := exists_ledgers h
  have ht' : (v.laterWithout moves).2 ≤ t := (Limiter.gate.after_time _ _ _ moves).trans_le ht
  have hend : v.after.clock ≤ t := (Limiter.gate.le_after _ _ moves).trans ht
  rw [later, hmirrors.remaining_after hfree ht, laterWithout, hmirrors'.remaining_after hfree ht']
  exact (remaining h).2 t hend

/-- Whatever is asked later, a visit shifts the free slots by one at most. -/
lemma answers_near (h : v.desk.Accounts c v.machine.clock) (moves : List Gate.Move) :
    Gate.AllNear (v.answers moves) (v.answersWithout moves) := by
  obtain ⟨k, k', hmirrors, hmirrors', hnear, -⟩ := exists_ledgers h
  exact hmirrors.answers_near hmirrors' hnear moves

/-- A visit that is not admitted leaves every later answer as it is without it. -/
lemma answers_eq_of_not_admitted (h : v.desk.Accounts c v.machine.clock)
    (hnone : ∀ s, v.submission? = some s → s.decision ≠ .allowed) (moves : List Gate.Move) :
    v.answers moves = v.answersWithout moves := by
  obtain ⟨k, k', hmirrors, hmirrors', -, hsame⟩ := exists_ledgers h
  rw [answers, answersWithout, hmirrors.answers_eq, hmirrors'.answers_eq, hsame hnone]

end Visit

namespace Desk

/-- A desk keeps account over all visits. -/
lemma Accounts.visits {c : Config} {d : Desk} {m : Machine} (h : d.Accounts c m.clock)
    (reviews : List (Interlude × Invocation)) :
    ∀ v ∈ d.visits m reviews, v.desk.Accounts c v.machine.clock := by
  induction reviews generalizing d m with
  | nil => exact fun v hv => absurd hv List.not_mem_nil
  | cons review rest ih =>
      have hfirst : Visit.desk ⟨d, review.1.act m, review.2⟩ |>.Accounts c (review.1.act m).clock :=
        h.later (review.1.clock_le m)
      exact List.forall_mem_cons.mpr ⟨hfirst, ih (Visit.remaining hfirst).1⟩

/-- **A review whose model has no key has taken a slot.**  In every run of reviews at a new desk it
ends as an error of the configuration and nothing is sent for it.  As long as no further check is
made, one slot less is left than without the review until its window has passed, and as many from
then on; so the next check, if it is made within the window, is allowed only where without the
review two slots were left.  Whatever the limiter is asked later, after the review or without it,
the free slots differ by one at most; and after a review that is not admitted they are the same. -/
theorem runAll_slots (c : Config) (m : Machine) (reviews : List (Interlude × Invocation)) :
    (((ofConfig c).runAll reviews).run m).1.1 =
      ((ofConfig c).visits m reviews).map Visit.result ∧
    ∀ v ∈ (ofConfig c).visits m reviews,
      (∀ moves, Gate.AllNear (v.answers moves) (v.answersWithout moves)) ∧
      ((∀ s, v.submission? = some s → s.decision ≠ .allowed) →
        ∀ moves, v.answers moves = v.answersWithout moves) ∧
      ∀ s, v.submission? = some s → s.Keyless →
        v.result = .error (.configuration s.prepared.model.keyFault.reason (some "models") none) ∧
        s.events = [.decided s.machine.clock .allowed, .consulted s.prepared.question] ∧
        ∀ moves, .check ∉ moves → ∀ t, (v.later moves).2 ≤ t →
          ((v.later moves).1.remaining t).1 +
              (if t - s.machine.clock < c.policy.window then 1 else 0) =
            ((v.laterWithout moves).1.remaining t).1 ∧
          (t - s.machine.clock < c.policy.window →
            (((v.later moves).1.check t).1 = .allowed ↔
              1 < ((v.laterWithout moves).1.remaining t).1)) := by
  refine ⟨runAll_result _ _ _, fun v hv => ?_⟩
  have haccounts := (accounts_ofConfig c m.clock).visits reviews v hv
  refine ⟨Visit.answers_near haccounts, Visit.answers_eq_of_not_admitted haccounts,
    fun s hs hkeyless => ?_⟩
  obtain ⟨hresult, -, -⟩ := Visit.ends_of_some hs
  obtain ⟨hfault, hevents, -⟩ := hkeyless.ends
  refine ⟨hresult.trans hfault, hevents, fun moves hfree t ht => ?_⟩
  have hslots := Visit.remaining_later haccounts hfree ht
  rw [Visit.slots, hs, Option.elim_some, hkeyless.admitted, haccounts.policy] at hslots
  refine ⟨hslots, fun hwindow => ?_⟩
  rw [Decision.slots, if_pos hwindow] at hslots
  rw [Limiter.check_eq_allowed_iff, ← hslots, Nat.lt_add_left_iff_pos]

/-- A file of one letter that is to be converted comes to the gate. -/
lemma exists_submission_letter (d : Desk) (m : Machine) {model : Model}
    (hmodel : d.config.resolve none = .ok model)
    (hdisk : m.disk = ⟨[(["a.py"], .file ⟨#[112]⟩)], []⟩) :
    let i : Invocation := ⟨.convertLanguage, "a.py", some "python", some "rust", none, none⟩
    ∃ prompt, Visit.submission? ⟨d, m, i⟩ =
      some ⟨d, m.note (.logged .debug ("📄 Reading source from " ++ "a.py")),
        ⟨.convertLanguage, "python", some "rust", "p", model, prompt⟩, i⟩ := by
  intro i
  obtain ⟨prompt, hprepare⟩ := Invocation.exists_prepare_letter hmodel hdisk
  refine ⟨prompt, ?_⟩
  unfold Visit.submission?
  dsimp only
  rw [hprepare]

/-- One such review, with one request in a minute and no keys in the environment. -/
lemma exists_keyless_letter :
    let c : Config := ⟨"m", [("m", .ofName "gpt-4o" .openai)], ⟨1, 60⟩, 60⟩
    let m := { Machine.offline [] [] with disk := ⟨[(["a.py"], .file ⟨#[112]⟩)], []⟩ }
    ∃ s, Visit.submission? ⟨ofConfig c, m,
        ⟨.convertLanguage, "a.py", some "python", some "rust", none, none⟩⟩ = some s ∧
      s.Keyless ∧ s.prepared.model = .ofName "gpt-4o" .openai ∧ s.machine.clock = 0 ∧
      s.deskAfter = ⟨c, ((Limiter.fresh ⟨1, 60⟩).check 0).2⟩ ∧ s.after.clock = 0 ∧
      s.after.disk = m.disk := by
  intro c m
  have hmodel : c.resolve none = .ok (.ofName "gpt-4o" .openai) := by decide +kernel
  obtain ⟨prompt, hs⟩ := exists_submission_letter (ofConfig c) m hmodel rfl
  let s : Submission := ⟨ofConfig c, m.note (.logged .debug ("📄 Reading source from " ++ "a.py")),
    ⟨.convertLanguage, "python", some "rust", "p", .ofName "gpt-4o" .openai, prompt⟩,
    ⟨.convertLanguage, "a.py", some "python", some "rust", none, none⟩⟩
  have hallowed : ((Limiter.fresh ⟨1, 60⟩).check 0).1 = .allowed := by decide
  have hendpoint : (Model.ofName "gpt-4o" .openai).base = .ok "https://api.openai.com/v1" := by
    decide +kernel
  have hunset : s.machine.setting? s.prepared.model.keyName = none := rfl
  have hkeyless : s.Keyless := by
    refine ⟨hallowed, rfl, ⟨_, hendpoint⟩, ?_⟩
    rw [hunset]
    exact nofun
  exact ⟨s, hs, hkeyless, rfl, rfl, s.ends.2.1, rfl, hkeyless.ends.2.2⟩

/-- That review takes the only slot. -/
theorem runAll_slots_letter :
    let c : Config := ⟨"m", [("m", .ofName "gpt-4o" .openai)], ⟨1, 60⟩, 60⟩
    let m := { Machine.offline [] [] with disk := ⟨[(["a.py"], .file ⟨#[112]⟩)], []⟩ }
    let i : Invocation := ⟨.convertLanguage, "a.py", some "python", some "rust", none, none⟩
    let v : Visit := ⟨ofConfig c, m, i⟩
    v ∈ (ofConfig c).visits m [(.still, i)] ∧ v.after.clock ≤ 30000000000 ∧
      (∃ s, v.submission? = some s ∧ s.Keyless) ∧
      (v.deskAfter.limiter.remaining 30000000000).1 + 1 =
        (v.desk.limiter.remaining 30000000000).1 := by
  intro c m i v
  obtain ⟨s, hs, hkeyless, -, hgate, -, hclock, -⟩ := exists_keyless_letter
  obtain ⟨-, -, hafter⟩ : v.result = s.result ∧ v.deskAfter = s.deskAfter ∧ v.after = s.after :=
    Visit.ends_of_some hs
  have hmem : v ∈ (ofConfig c).visits m [(.still, i)] := mem_visits _ _ _
  have hsoon : v.after.clock ≤ 30000000000 := by
    rw [hafter, hclock]
    decide
  obtain ⟨-, -, hleft⟩ := ((runAll_slots c m [(.still, i)]).2 v hmem).2.2 s hs hkeyless
  obtain ⟨hslots, -⟩ := hleft [] List.not_mem_nil 30000000000 hsoon
  rw [hgate, if_pos (by decide)] at hslots
  exact ⟨hmem, hsoon, ⟨s, hs, hkeyless⟩, hslots⟩

/-- **With a limit of one, a review without a key makes the next one wait.** -/
theorem not_unspent_of_keyless :
    let c : Config := ⟨"m", [("m", .ofName "gpt-4o" .openai)], ⟨1, 60⟩, 60⟩
    let m := { Machine.offline [] [] with disk := ⟨[(["a.py"], .file ⟨#[112]⟩)], []⟩ }
    let i : Invocation := ⟨.convertLanguage, "a.py", some "python", some "rust", none, none⟩
    let first : Visit := ⟨ofConfig c, m, i⟩
    let second : Visit := ⟨first.deskAfter, first.after, i⟩
    (ofConfig c).visits m [(.still, i), (.still, i)] = [first, second] ∧
      (∃ s, first.submission? = some s ∧ s.Keyless) ∧
      first.result = .error (.configuration ("API key for model 'gpt-4o' " ++
        "not found. Set the OPENAI_API_KEY environment variable") (some "models") none) ∧
      (first.desk.limiter.remaining first.after.clock).1 = 1 ∧
      (first.deskAfter.limiter.remaining first.after.clock).1 = 0 ∧
      second.result = .error (.rateLimited 60000000000) := by
  intro c m i first second
  obtain ⟨s, hs, hkeyless, hmodel, -, hdesk, hclock, hdisk⟩ := exists_keyless_letter
  obtain ⟨hfirst, hleft, hafter⟩ : first.result = s.result ∧ first.deskAfter = s.deskAfter ∧
    first.after = s.after := Visit.ends_of_some hs
  have hreason : (Model.ofName "gpt-4o" .openai).keyFault.reason = "API key for model 'gpt-4o' " ++
      "not found. Set the OPENAI_API_KEY environment variable" := by decide +kernel
  have hresolved : s.deskAfter.config.resolve none = .ok (.ofName "gpt-4o" .openai) := by
    rw [hdesk]
    decide +kernel
  have hdenied : (s.deskAfter.limiter.check s.after.clock).1 = .denied 60000000000 := by
    rw [hdesk, hclock]
    decide +kernel
  obtain ⟨prompt, hs'⟩ := exists_submission_letter s.deskAfter s.after hresolved hdisk
  have hsecond : second.result = .error (.rateLimited 60000000000) := by
    have hnext : second = ⟨s.deskAfter, s.after, i⟩ := by rw [← hleft, ← hafter]
    rw [hnext]
    exact Visit.result_of_denied hs' hdenied
  refine ⟨visits_pair _ _ _ _, ⟨s, hs, hkeyless⟩, ?_, ?_, ?_, hsecond⟩
  · rw [hfirst, hkeyless.ends.1, hmodel, hreason]
  · rw [hafter, hclock]
    rfl
  · rw [hafter, hclock, hleft, hdesk]
    rfl

end Desk

end CodeReview

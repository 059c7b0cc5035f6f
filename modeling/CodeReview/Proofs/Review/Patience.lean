import CodeReview.Proofs.Model.Discretion
import CodeReview.Proofs.RateLimit.Waiting
import CodeReview.Proofs.Review.Obstacle
import CodeReview.Proofs.Review.Product

/-!
# Reviews that wait for the limiter

A review that the limiter denies waits as long as the denial says and is submitted again.  What
happens meanwhile is not the review's own doing: a `Pause` says how long the machine sleeps and what
it is like then, and what others have done to the limiter they share.  `Session.reviewAmid` is a
review with given pauses; with `Pause.plain`, which sleeps exactly as long as it should and where
nothing else happens, it is `Session.review` (`reviewAmid_plain`).

`Submission.Tries` is what such a review does: submissions that are denied, each followed by its
pause, and one more that decides.  Everything about a patient review is read off it by induction.

Main statement: `reviewAmid_tries`.  Where a review comes to the gate it is submitted as it was
prepared, at most once more than it may wait; it waits exactly as long as each denial says, and ends
as its last submission does.  Where the limiter admits anything at all and the pauses are long
enough and nobody else is admitted in them, one pause is enough (`Limiter.allowed_of_waited`).
-/

namespace CodeReview

open Act Machine

/-! ### Pauses -/

/-- What happens while a review waits: the machine sleeps, and others may use the limiter. -/
structure Pause where
  act : Duration → Machine → Machine
  others : Limiter → Limiter
  journal_eq (wait : Duration) (m : Machine) : (act wait m).journal = m.journal

namespace Pause

/-- The machine sleeps exactly as long as it should, and nothing else happens. -/
def plain : Pause := ⟨fun wait m => m.pass wait, id, fun _ _ => rfl⟩

/-- The machine sleeps long enough, and nobody is admitted meanwhile. -/
structure Suffices (pause : Pause) : Prop where
  clock_le (wait : Duration) (m : Machine) : m.clock + wait ≤ (pause.act wait m).clock
  dwindles (l : Limiter) : l.Dwindles (pause.others l)

/-- Sleeping as long as one should is enough. -/
lemma suffices_plain : plain.Suffices := ⟨fun _ _ => Nat.le_refl _, Limiter.dwindles_refl⟩

/-- It is told how long the pause is to be, and that it is the `count`-th of `all`. -/
def announce (all count : ℕ) (wait : Duration) (m : Machine) : Machine :=
  (m.note (.logged .warn ("⏳ Rate limit reached, waiting " ++ wait.seconds ++ "s (" ++
    toString count ++ "/" ++ toString all ++ ")"))).note (.waited wait)

/-- The machine after the pause. -/
def sleep (pause : Pause) (all count : ℕ) (wait : Duration) (m : Machine) : Machine :=
  pause.act wait (announce all count wait m)

/-- Of a pause only the wait is told. -/
lemma story_sleep (pause : Pause) (all count : ℕ) (wait : Duration) (m : Machine) :
    (pause.sleep all count wait m).story = m.story ++ [.waited wait] := by
  rw [story, sleep, pause.journal_eq, announce, Machine.note, Machine.note, List.append_assoc,
    Event.told_append]
  rfl

/-- A pause that is long enough does not end before the wait is over. -/
lemma Suffices.le_sleep {pause : Pause} (h : pause.Suffices) (all count : ℕ) (wait : Duration)
    (m : Machine) : m.clock + wait ≤ (pause.sleep all count wait m).clock :=
  h.clock_le wait (announce all count wait m)

end Pause

namespace Desk

/-- Submit a prepared review; where it is not admitted, wait as long as it takes and submit it
again, as often as there are pauses for it. -/
def submitAmid (all : ℕ) (p : Prepared) (i : Invocation) :
    List Pause → Desk → Act (Except Failure Delivery × Desk)
  | [], d => d.submit p i
  | pause :: rest, d => do
    match ← d.submit p i with
    | (.error (.rateLimited retryAfter), d) => do
      modify (pause.sleep all (all - rest.length) retryAfter)
      submitAmid all p i rest { d with limiter := pause.others d.limiter }
    | outcome => pure outcome

/-- With plain pauses a review is submitted as commands do it. -/
lemma submitAmid_plain (all : ℕ) (p : Prepared) (i : Invocation) (waits : ℕ) (d : Desk) :
    submitAmid all p i (List.replicate waits .plain) d = submitPatiently all p i waits d := by
  induction waits generalizing d with
  | zero => rfl
  | succ waits ih =>
      rw [List.replicate_succ, submitAmid, submitPatiently]
      simp only [ih, List.length_replicate]
      rfl

end Desk

namespace Session

/-- Do a review, with a pause for each wait that a command may take. -/
def reviewAmid (s : Session) (wait : Bool) (pauses : Fin maxWaits → Pause) (i : Invocation) :
    Act (Except Failure Delivery × Session) := do
  match ← s.openDesk with
  | .error f => pure (.error f, s)
  | .ok d => do
    match ← (i.prepare d.config).run with
    | .error f => pure (.error f, s.withDesk d)
    | .ok p => do
      let (result, d) ← d.submitAmid maxWaits p i (if wait then List.ofFn pauses else [])
      pure (result, s.withDesk d)

/-- **Where the machine sleeps as long as it should and nothing else happens**, a review with pauses
is a review. -/
lemma reviewAmid_plain (s : Session) (wait : Bool) (i : Invocation) :
    s.reviewAmid wait (fun _ => .plain) i = s.review wait i := by
  have hpauses : (if wait then List.ofFn fun _ : Fin maxWaits => Pause.plain else []) =
      List.replicate (if wait then maxWaits else 0) .plain := by
    cases wait with
    | false => rfl
    | true => exact List.ofFn_const _ _
  unfold reviewAmid review
  simp only [hpauses, Desk.submitAmid_plain]
  rfl

end Session

/-! ### The submissions of a review -/

namespace Submission

variable {all : ℕ} {pauses : List Pause} {s last : Submission} {earlier : List Submission}

/-- What is told of a submission that is denied and of the wait after it. -/
def refusal (s : Submission) : List Event :=
  match s.decision with
  | .allowed => []
  | .denied wait => [.decided s.machine.clock (.denied wait), .waited wait]

/-- The same review, brought again after the pause. -/
def again (s : Submission) (pause : Pause) (all count : ℕ) (wait : Duration) : Submission :=
  ⟨{ s.deskAfter with limiter := pause.others s.deskAfter.limiter },
    pause.sleep all count wait s.after, s.prepared, s.invocation⟩

/-- From the first submission on, the earlier ones are denied and brought again after their pauses;
the last one is admitted, or there is no pause left for it. -/
inductive Tries (all : ℕ) : List Pause → Submission → List Submission → Submission → Prop
  | decided {pauses : List Pause} {s : Submission}
      (h : (∃ wait, s.decision = .denied wait) → pauses = []) : Tries all pauses s [] s
  | denied {pause : Pause} {rest : List Pause} {s last : Submission} {earlier : List Submission}
      {wait : Duration} (h : s.decision = .denied wait)
      (hrest : Tries all rest (s.again pause all (all - rest.length) wait) earlier last) :
      Tries all (pause :: rest) s (s :: earlier) last

/-- A submission that is denied ends as rate limited, with the wait that it was told. -/
lemma result_of_denied {wait : Duration} (h : s.decision = .denied wait) :
    s.result = .error (.rateLimited wait) := s.ends.1.of_denied h

/-- Only what the limiter has denied ends as rate limited. -/
lemma result_eq_rateLimited_iff {wait : Duration} :
    s.result = .error (.rateLimited wait) ↔ s.decision = .denied wait := by
  refine ⟨fun h => ?_, result_of_denied⟩
  cases hdecision : s.decision with
  | allowed => exact absurd h (s.ends.1.of_allowed hdecision wait)
  | denied wait' =>
      rw [result_of_denied hdecision] at h
      rw [Failure.rateLimited.inj (Except.error.inj h)]

/-- Of a submission that is denied no more is told than that. -/
lemma events_of_denied {wait : Duration} (h : s.decision = .denied wait) :
    s.events = [.decided s.machine.clock (.denied wait)] := by
  have hends := s.ends.1
  generalize s.events = events at hends
  generalize s.result = r at hends
  generalize s.after.disk = disk at hends
  cases hends with
  | denied hdenied => rw [Decision.denied.inj (hdenied.symm.trans h)]
  | cancelled hallowed => exact absurd (hallowed.symm.trans h) nofun
  | refused hallowed => exact absurd (hallowed.symm.trans h) nofun
  | answered hallowed => exact absurd (hallowed.symm.trans h) nofun

/-- There is always a way to go on. -/
lemma exists_tries (all : ℕ) (pauses : List Pause) (s : Submission) :
    ∃ earlier last, Tries all pauses s earlier last := by
  induction pauses generalizing s with
  | nil => exact ⟨[], s, .decided fun _ => rfl⟩
  | cons pause rest ih =>
      cases hdecision : s.decision with
      | allowed =>
          refine ⟨[], s, .decided ?_⟩
          rintro ⟨wait, hdenied⟩
          rw [hdecision] at hdenied
          cases hdenied
      | denied wait =>
          obtain ⟨earlier, last, hrest⟩ := ih (s.again pause all (all - rest.length) wait)
          exact ⟨s :: earlier, last, .denied hdecision hrest⟩

namespace Tries

/-- **The review ends as its last submission does.** -/
lemma run (h : Tries all pauses s earlier last) :
    (s.desk.submitAmid all s.prepared s.invocation pauses).run s.machine = last.outcome := by
  induction h with
  | @decided pauses s hdecides =>
      cases pauses with
      | nil => rfl
      | cons pause rest =>
          have houtcome : s.outcome = ((s.result, s.deskAfter), s.after) := rfl
          rw [Desk.submitAmid, run_bind_of s.submit_run, houtcome]
          rcases hresult : s.result with f | delivery
          · cases f with
            | rateLimited wait =>
                cases hdecides ⟨wait, result_eq_rateLimited_iff.mp hresult⟩
            | _ => rfl
          · rfl
  | @denied pause rest s last earlier wait hdenied _ ih =>
      have hrun : (s.desk.submit s.prepared s.invocation).run s.machine =
        ((.error (.rateLimited wait), s.deskAfter), s.after) := by
        rw [← result_of_denied hdenied]
        exact s.submit_run
      rw [Desk.submitAmid, run_bind_of hrun, ← ih]
      rfl

/-- **It is the same review that is submitted again.** -/
lemma same (h : Tries all pauses s earlier last) :
    ∀ x ∈ earlier ++ [last], x.prepared = s.prepared ∧ x.invocation = s.invocation := by
  induction h with
  | decided => simp
  | denied _ _ ih => exact List.forall_mem_cons.mpr ⟨⟨rfl, rfl⟩, ih⟩

/-- Every submission but the last one was denied. -/
lemma of_mem_earlier (h : Tries all pauses s earlier last) :
    ∀ x ∈ earlier, ∃ wait, x.decision = .denied wait := by
  induction h with
  | decided => simp
  | @denied _ _ _ _ _ wait hdenied _ ih => exact List.forall_mem_cons.mpr ⟨⟨wait, hdenied⟩, ih⟩

/-- There are no more submissions that were denied than pauses. -/
lemma length_le (h : Tries all pauses s earlier last) : earlier.length ≤ pauses.length := by
  induction h with
  | decided => exact Nat.zero_le _
  | denied _ _ ih => exact Nat.succ_le_succ ih

/-- A review that is denied in the end has taken all its pauses. -/
lemma length_eq_of_denied (h : Tries all pauses s earlier last) {wait : Duration}
    (hdenied : last.decision = .denied wait) : earlier.length = pauses.length := by
  induction h with
  | decided hdecides =>
      rw [hdecides ⟨wait, hdenied⟩]
      rfl
  | denied _ _ ih => exact congrArg (· + 1) (ih hdenied)

/-- **A wait stands between each submission that is denied and the next one.** -/
lemma story (h : Tries all pauses s earlier last) : last.after.story =
    s.machine.story ++ (earlier.flatMap refusal ++ last.events) := by
  induction h with
  | decided => exact story_after_eq _
  | @denied pause rest s last earlier wait hdenied _ ih =>
      have hagain : (s.again pause all (all - rest.length) wait).machine.story =
          s.machine.story ++ (s.events ++ [.waited wait]) := by
        rw [again, Pause.story_sleep, s.story_after_eq, List.append_assoc]
      have hrefusal : s.refusal = s.events ++ [.waited wait] := by
        rw [refusal, hdenied, events_of_denied hdenied]
        rfl
      rw [ih, hagain, List.flatMap_cons, hrefusal]
      simp only [List.append_assoc]

/-- A submission that is denied takes no time. -/
lemma clock_le_after (s : Submission) : s.machine.clock ≤ s.after.clock := by
  obtain ⟨-, -, t, hafter⟩ := s.ends
  rw [hafter]
  exact Nat.le_add_right _ _

/-- **One pause is enough** where it is long enough and nobody else is admitted in it. -/
lemma of_suffices (h : Tries all pauses s earlier last) (hne : pauses ≠ [])
    (hpauses : ∀ pause ∈ pauses, pause.Suffices)
    (hlen : s.desk.limiter.admitted.length ≤ s.desk.limiter.policy.limit)
    (hlimit : 0 < s.desk.limiter.policy.limit)
    (hfront : (s.desk.limiter.prune s.machine.clock).FrontRepresentable) :
    earlier.length ≤ 1 ∧ last.decision = .allowed := by
  cases h with
  | decided hdecides =>
      refine ⟨Nat.zero_le _, ?_⟩
      cases hdecision : s.decision with
      | allowed => rfl
      | denied wait => exact absurd (hdecides ⟨wait, hdecision⟩) hne
  | @denied pause rest _ _ earlier wait hdenied hrest =>
      have hpause := hpauses pause List.mem_cons_self
      have hallowed : (s.again pause all (all - rest.length) wait).decision = .allowed := by
        refine Limiter.allowed_of_waited hlen hlimit hfront hdenied ?_ ?_
        · rw [again, s.ends.2.1]
          exact hpause.dwindles _
        · exact (Nat.add_le_add_right (clock_le_after s) wait).trans (hpause.le_sleep _ _ wait _)
      cases hrest with
      | decided => exact ⟨Nat.le_refl _, hallowed⟩
      | denied hagain =>
          rw [hallowed] at hagain
          cases hagain

end Tries

end Submission

/-! ### Whole reviews -/

/-- The event may come of opening a desk or of preparing a review: nobody has been asked yet,
neither the limiter nor a model. -/
def Event.isBeforeGate : Event → Bool
  | .logged .. | .sent .. | .loaded .. => true
  | _ => false

namespace Session

variable {s : Session} {i : Invocation} {m m₁ m₂ : Machine} {d : Desk} {p : Prepared}

/-- Until it comes to the gate, a review asks neither the limiter nor a model. -/
lemma story_prepared {r : Except Failure Desk} {r' : Except Failure Prepared} {c : Config}
    (hopen : s.openDesk.run m = (r, m₁)) (hprepare : (i.prepare c).run.run m₁ = (r', m₂)) :
    ∃ prepared, m₂.story = m.story ++ prepared ∧ ∀ e ∈ prepared, e.isBeforeGate = true := by
  have hkind : ∀ d t, Licence.reading.Permits d t →
      (Licence.working (·.isBeforeGate = true)).Permits d t := by
    refine fun d t h => h.working fun e he => ?_
    cases e with
    | logged => rfl
    | sent => rfl
    | _ => exact he.elim
  have hopened := openDesk_within hkind (fun _ _ => rfl) s
  have hprepared : Act.Within (.working (·.isBeforeGate = true)) (i.prepare c).run :=
    (i.prepare_reading c).mono hkind
  obtain ⟨t, ht, hpermits⟩ := (hopened.bind fun _ => hprepared).allows m
  have hrun : (s.openDesk >>= fun _ => (i.prepare c).run).run m = (r', m₂) :=
    (run_bind_of hopen).trans hprepare
  refine ⟨Event.told t.events, ?_, fun e he => hpermits.events e (List.mem_of_mem_filter he)⟩
  rw [hrun] at ht
  rw [show m₂ = m.after t from ht, story_after]

/-- A desk that is opened has a fresh limiter. -/
lemma reachable_of_openDesk (hdesk : ∀ d ∈ s.desk, d.limiter.Reachable)
    (hopen : s.openDesk.run m = (.ok d, m₁)) : d.limiter.Reachable := by
  replace hopen : (s.openDesk.run m).1 = .ok d := by rw [hopen]
  unfold openDesk at hopen
  cases hs : s.desk with
  | some d' =>
      rw [hs] at hopen
      obtain rfl := Except.ok.inj hopen
      exact hdesk d' hs
  | none =>
      rw [hs] at hopen
      change ((Config.load s.configPath).run.run m).1.map Desk.ofConfig = .ok d at hopen
      cases hload : ((Config.load s.configPath).run.run m).1 with
      | error f =>
          rw [hload] at hopen
          cases hopen
      | ok c =>
          rw [hload] at hopen
          obtain rfl := Except.ok.inj hopen
          exact .fresh c.policy

/-- What there is to say of a review that came to the gate with its `first` submission: it was
submitted again after the `earlier` ones, at most `waits` times, and the `last` one decided. -/
structure Patient (before : Machine) (waits : ℕ) (first : Submission) (earlier : List Submission)
    (last : Submission) : Prop where
  /-- The review that was prepared is submitted each time. -/
  same : ∀ x ∈ earlier ++ [last], x.prepared = first.prepared ∧ x.invocation = first.invocation
  denied : ∀ x ∈ earlier, ∃ wait, x.decision = .denied wait
  length_le : earlier.length ≤ waits
  /-- Each denial is followed by a wait of its own length, and there are no other waits. -/
  story : ∃ prepared, (∀ e ∈ prepared, e.isBeforeGate = true) ∧
    last.after.story = before.story ++ prepared ++ earlier.flatMap Submission.refusal ++ last.events
  /-- A model is called once where the last submission is admitted, and else not at all. -/
  calls : (before.since last.after).countP Event.isConsulted =
    if last.decision = .allowed then 1 else 0
  /-- The review ends as rate limited only with a denial, and after all waits. -/
  rateLimited_iff (wait : Duration) :
    last.result = .error (.rateLimited wait) ↔ last.decision = .denied wait
  exhausted (wait : Duration) :
    last.result = .error (.rateLimited wait) → earlier.length = waits

variable {all : ℕ} {pauses : List Pause} {first last : Submission} {earlier : List Submission}

/-- Submissions that are denied put no question. -/
lemma countP_refusals (hdenied : ∀ x ∈ earlier, ∃ wait, x.decision = .denied wait) :
    (earlier.flatMap Submission.refusal).countP Event.isConsulted = 0 := by
  rw [List.countP_eq_zero]
  intro e he hconsulted
  obtain ⟨x, hx, he⟩ := List.mem_flatMap.mp he
  obtain ⟨wait, hwait⟩ := hdenied x hx
  rw [Submission.refusal, hwait] at he
  rcases List.mem_pair.mp he with rfl | rfl
  · cases hconsulted
  · cases hconsulted

/-- What is told of a review that came to the gate is what is told of its submissions. -/
lemma patient_of_tries (h : first.Tries all pauses earlier last) {prepared : List Event}
    (hprepared : ∀ e ∈ prepared, e.isBeforeGate = true)
    (hfound : first.machine.story = m.story ++ prepared) :
    Patient m pauses.length first earlier last := by
  have hstory : last.after.story =
      m.story ++ prepared ++ earlier.flatMap Submission.refusal ++ last.events := by
    rw [h.story, hfound, ← List.append_assoc]
  refine ⟨h.same, h.of_mem_earlier, h.length_le, ⟨prepared, hprepared, hstory⟩, ?_,
    fun wait => Submission.result_eq_rateLimited_iff,
    fun wait hwait => h.length_eq_of_denied (Submission.result_eq_rateLimited_iff.mp hwait)⟩
  have hnone : prepared.countP Event.isConsulted = 0 := by
    rw [List.countP_eq_zero]
    intro e he hconsulted
    have hbefore := hprepared e he
    cases e <;> simp_all [Event.isConsulted, Event.isBeforeGate]
  rw [since, hstory, List.append_assoc, List.append_assoc, List.drop_left, List.countP_append,
    List.countP_append, hnone, countP_refusals h.of_mem_earlier, last.ends.1.countP_consulted,
    Nat.zero_add, Nat.zero_add]

/-- **A review that waits for the limiter** is prepared once, and what was prepared is submitted, at
most once more than it may wait.  It waits for exactly as long as each denial says, before it is
submitted again, and ends as its last submission does, whatever time passes and whatever others do
meanwhile.  With a positive limit and an expiry that can be represented, one wait is enough where
the machine sleeps at least as long as it should and nobody else is admitted. -/
theorem reviewAmid_tries (wait : Bool) (pauses : Fin maxWaits → Pause)
    (hdesk : ∀ d ∈ s.desk, d.limiter.Reachable) (hopen : s.openDesk.run m = (.ok d, m₁))
    (hprepare : (i.prepare d.config).run.run m₁ = (.ok p, m₂)) :
    s.reviewAmid wait (fun _ => .plain) i = s.review wait i ∧
    ∃ earlier last,
      Submission.Tries maxWaits (if wait then List.ofFn pauses else []) ⟨d, m₂, p, i⟩ earlier last ∧
      (s.reviewAmid wait pauses i).run m = ((last.result, s.withDesk last.deskAfter), last.after) ∧
      Patient m (if wait then maxWaits else 0) ⟨d, m₂, p, i⟩ earlier last ∧
      (wait = true → 1 ≤ d.limiter.policy.limit →
        (d.limiter.prune m₂.clock).FrontRepresentable → (∀ k, (pauses k).Suffices) →
        earlier.length ≤ 1 ∧ ∀ retryAfter, last.result ≠ .error (.rateLimited retryAfter)) := by
  refine ⟨s.reviewAmid_plain wait i, ?_⟩
  let first : Submission := ⟨d, m₂, p, i⟩
  obtain ⟨earlier, last, htries⟩ :=
    first.exists_tries maxWaits (if wait then List.ofFn pauses else [])
  obtain ⟨prepared, hstory, hprepared⟩ := story_prepared hopen hprepare
  have hlength : (if wait then List.ofFn pauses else []).length = if wait then maxWaits else 0 := by
    cases wait with
    | false => rfl
    | true => exact List.length_ofFn
  refine ⟨earlier, last, htries, ?_, hlength ▸ patient_of_tries htries hprepared hstory, ?_⟩
  · unfold reviewAmid
    rw [run_bind_of hopen]
    exact (run_bind_of hprepare).trans (run_bind_of htries.run)
  · rintro rfl hlimit hfront hpauses
    have hlen := (reachable_of_openDesk hdesk hopen).length_le
    have hne : List.ofFn pauses ≠ [] := by
      rw [← List.length_pos_iff, List.length_ofFn]
      decide
    have hall : ∀ pause ∈ List.ofFn pauses, pause.Suffices := by
      intro pause hpause
      obtain ⟨k, rfl⟩ := List.mem_ofFn.mp hpause
      exact hpauses k
    obtain ⟨hone, hallowed⟩ := htries.of_suffices hne hall hlen hlimit hfront
    refine ⟨hone, fun retryAfter hlimited => ?_⟩
    rw [Submission.result_eq_rateLimited_iff, hallowed] at hlimited
    cases hlimited

/-- With one request in a minute, a review that comes five seconds after another is denied once. -/
theorem reviewAmid_tries_minute :
    let config : Config := ⟨"m", [("m", .ofName "gpt-4o" .openai)], ⟨1, 60⟩, 60⟩
    let s : Session := ⟨"config.yaml", true, some ⟨config, ((Limiter.fresh ⟨1, 60⟩).check 0).2⟩⟩
    let m : Machine := { Machine.bare with
      disk := ⟨[(["a.py"], .file ⟨#[112]⟩)], []⟩
      models := .rehearsal fun _ => .given 0 (.ok "fine")
      clock := 5000000000 }
    let i : Invocation := ⟨.convertLanguage, "a.py", some "python", some "rust", none, none⟩
    ∃ (first : Submission) (earlier : List Submission) (last : Submission),
      first.Tries maxWaits [.plain, .plain, .plain] earlier last ∧
      first.decision = .denied 55000000000 ∧ earlier.length ≤ 1 ∧
      (s.review true i).run m = ((last.result, s.withDesk last.deskAfter), last.after) ∧
      ∀ retryAfter, last.result ≠ .error (.rateLimited retryAfter) := by
  intro config s m i
  have hmodel : config.resolve none = .ok (.ofName "gpt-4o" .openai) := by decide +kernel
  obtain ⟨prompt, hprepare⟩ := Invocation.exists_prepare_letter (m := m) hmodel rfl
  have hreachable : ∀ d ∈ s.desk, d.limiter.Reachable := by
    rintro d ⟨⟩
    exact .check (.fresh _) 0
  obtain ⟨hplain, earlier, last, htries, hrun, -, hone⟩ := reviewAmid_tries (s := s) true
    (fun _ => .plain) hreachable rfl hprepare
  obtain ⟨hlength, hadmitted⟩ := hone rfl (by decide)
    (by unfold Limiter.FrontRepresentable; decide +kernel) fun _ => Pause.suffices_plain
  have hdenied : (((Limiter.fresh ⟨1, 60⟩).check 0).2.check 5000000000).1 =
    .denied 55000000000 := by decide +kernel
  exact ⟨_, earlier, last, htries, hdenied, hlength, hplain ▸ hrun, hadmitted⟩

end Session

end CodeReview

import CodeReview.Proofs.RateLimit.Moves
import CodeReview.Proofs.RateLimit.Waiting

/-!
# Counting down to the next admission

A denial says how long to wait.  That this is not an estimate is shown here for every run of a
limiter, under a clock that does not go back, and for every way in which the run may go on after
the denial: until the announced instant each check is denied and names the same instant, and the
first check from that instant on is admitted.

* `Timely` is what every run keeps: nothing in the queue is later than the clock, and the queue is
  no longer than the limit.
* `FullUntil` describes the limiter after a denial.  While the instant lies ahead nothing can change
  such a limiter (`FullUntil.prune_eq`), so that asking again is free.
* `FreeFrom` is what is left of it once the instant has come, for questions may prune before the
  next check is made.

The main statement is `denied_until_expiry`.  A time frame of zero needs no mention in it, as it
never leads to a denial.
-/

namespace CodeReview

open Gate

/-! ### Runs -/

namespace Gate

variable {σ : Type}

/-- The gate and the time after the moves of a run. -/
def after (g : Gate σ) (s : σ) (now : Instant) : List Move → σ × Instant
  | [] => (s, now)
  | m :: rest => g.after (g.turn s now m).2.1 (g.turn s now m).2.2 rest

/-- A property that every move keeps is kept by every run. -/
lemma after_induction {g : Gate σ} {P : σ → Instant → Prop}
    (hturn : ∀ s now m, P s now → P (g.turn s now m).2.1 (g.turn s now m).2.2)
    {s : σ} {now : Instant} (h : P s now) (moves : List Move) :
    P (g.after s now moves).1 (g.after s now moves).2 := by
  induction moves generalizing s now with
  | nil => exact h
  | cons m rest ih => exact ih (hturn s now m h)

/-- The clock does not go back. -/
lemma le_turn (g : Gate σ) (s : σ) (now : ℕ) (m : Move) : now ≤ (g.turn s now m).2.2 := by
  cases m with
  | check | remaining => exact le_rfl
  | elapse d => exact Nat.le_add_right now d

/-- No run ends before it begins. -/
lemma le_after (g : Gate σ) (s : σ) (now : ℕ) (moves : List Move) :
    now ≤ (g.after s now moves).2 := by
  induction moves generalizing s now with
  | nil => exact le_rfl
  | cons m rest ih => exact (g.le_turn s now m).trans (ih _ _)

/-- When a run ends does not depend on what is asked. -/
lemma after_time (g : Gate σ) (s s' : σ) (now : Instant) (moves : List Move) :
    (g.after s now moves).2 = (g.after s' now moves).2 := by
  induction moves generalizing s s' now with
  | nil => rfl
  | cons m rest ih =>
      cases m with
      | check | remaining | elapse d => exact ih _ _ _

/-- No answer is given before the run begins. -/
lemma le_of_mem_answers {g : Gate σ} {s : σ} {now t : ℕ} {a : Answer} {moves : List Move}
    (h : (t, a) ∈ g.answers s now moves) : now ≤ t := by
  induction moves generalizing s now with
  | nil => cases h
  | cons m rest ih =>
      rw [answers, List.mem_cons] at h
      rcases h with hfirst | hlater
      · exact (congrArg Prod.fst hfirst).ge
      · exact (g.le_turn s now m).trans (ih hlater)

end Gate

namespace Limiter

variable {l : Limiter} {now later expiry wait : ℕ}

/-! ### What every run keeps -/

/-- No move changes the policy. -/
lemma policy_turn (l : Limiter) (now : Instant) (m : Move) :
    (gate.turn l now m).2.1.policy = l.policy := by
  cases m with
  | check => exact check_policy l now
  | remaining => exact prune_policy l now
  | elapse d => rfl

/-- Nothing in the queue is later than the clock, and there is no more of it than the limit. -/
structure Timely (l : Limiter) (now : ℕ) : Prop where
  past : ∀ a : ℕ, a ∈ l.admitted → a ≤ now
  length_le : l.admitted.length ≤ l.policy.limit

/-- A fresh limiter is timely. -/
lemma timely_fresh (p : Policy) (start : Instant) : (fresh p).Timely start :=
  ⟨fun _ ha => absurd ha List.not_mem_nil, Nat.zero_le _⟩

/-- Pruning keeps a limiter timely. -/
lemma Timely.prune (h : l.Timely now) : (l.prune now).Timely now :=
  ⟨fun a ha => h.past a ((l.prune_suffix now).subset ha),
    (l.prune_suffix now).length_le.trans h.length_le⟩

/-- A check keeps a limiter timely. -/
lemma Timely.check (h : l.Timely now) : (l.check now).2.Timely now := by
  constructor
  · intro a ha
    rw [check_admitted, List.mem_append] at ha
    rcases ha with hold | hnew
    · exact h.prune.past a hold
    · cases hdecision : (l.check now).1 with
      | allowed =>
          rw [hdecision] at hnew
          exact (List.mem_singleton.mp hnew).le
      | denied wait =>
          rw [hdecision] at hnew
          cases hnew
  · exact length_check_le h.length_le now

/-- Every move keeps a limiter timely. -/
lemma Timely.turn (h : l.Timely now) (m : Move) :
    (gate.turn l now m).2.1.Timely (gate.turn l now m).2.2 := by
  cases m with
  | check => exact h.check
  | remaining => exact h.prune
  | elapse d => exact ⟨fun a ha => (h.past a ha).trans (Nat.le_add_right now d), h.length_le⟩

/-- After every run of a fresh limiter. -/
lemma timely_after (p : Policy) (start : Instant) (moves : List Move) :
    (gate.after (fresh p) start moves).1.Timely (gate.after (fresh p) start moves).2 :=
  after_induction (P := Timely) (fun _ _ m h => h.turn m) (timely_fresh p start) moves

/-! ### While the announced instant lies ahead -/

/-- The queue is full, and its front leaves the window at this instant, which can be represented. -/
structure FullUntil (l : Limiter) (expiry : ℕ) : Prop where
  exists_front : ∃ (oldest : ℕ) (rest : List ℕ), l.admitted = oldest :: rest ∧
    rest.length + 1 = l.policy.limit ∧ oldest + l.policy.window = expiry
  window_pos : (0 : ℕ) < l.policy.window
  expiry_lt : expiry < Instant.horizon

/-- A front that has not left the window keeps everything behind it. -/
lemma FullUntil.prune_eq (h : l.FullUntil expiry) (hnow : now < expiry) : l.prune now = l := by
  obtain ⟨oldest, rest, hqueue, -, hexpiry⟩ := h.exists_front
  have hlive : ¬expired l.policy.window now oldest = true := by
    have hpos := h.window_pos
    rw [expired_iff]
    omega
  have hkept : l.admitted.dropWhile (expired l.policy.window now) = l.admitted := by
    rw [hqueue]
    exact List.dropWhile_cons_of_neg hlive
  rw [Limiter.prune, hkept]

/-- A check before the instant is denied until then, and changes nothing. -/
lemma FullUntil.check_eq (h : l.FullUntil expiry) (hnow : now < expiry) :
    l.check now = (.denied (expiry - now), l) := by
  have hpruned := h.prune_eq hnow
  obtain ⟨oldest, rest, hqueue, hfull, hexpiry⟩ := h.exists_front
  have hnotfree : ¬(l.prune now).admitted.length < l.policy.limit := by
    rw [hpruned, hqueue, List.length_cons]
    omega
  have hwait : l.wait now = expiry - now := by
    rw [Limiter.wait, hqueue]
    show waitFor l.policy.window now oldest = expiry - now
    rw [waitFor_eq_ite, hexpiry, if_pos h.expiry_lt]
  rw [check_of_not_lt hnotfree, hpruned, hwait]

/-- A question before the instant changes nothing either. -/
lemma FullUntil.remaining_eq (h : l.FullUntil expiry) (hnow : now < expiry) :
    (l.remaining now).2 = l := h.prune_eq hnow

/-- **A denial leaves a full limiter behind**, whose front leaves the window when the wait is over,
which is no more than a window away. -/
lemma Timely.fullUntil_of_denied (h : l.Timely now) (hlimit : 0 < l.policy.limit)
    (hfront : (l.prune now).FrontRepresentable) (hdenied : (l.check now).1 = .denied wait) :
    (l.check now).2.FullUntil (now + wait) ∧ wait ≤ l.policy.window := by
  obtain ⟨(oldest : ℕ), rest, hqueue, hfull, hlive, hwait⟩ := exists_front_of_denied hlimit hdenied
  have hinside : (now - oldest : ℕ) < l.policy.window := hlive
  have hpast : oldest ≤ now := h.prune.past oldest (by rw [hqueue]; exact List.mem_cons_self)
  have hlength := h.prune.length_le
  have hhorizon := hfront oldest (by rw [hqueue]; rfl)
  have hnotfree : ¬(l.prune now).admitted.length < l.policy.limit := by
    rw [hqueue]
    exact Nat.not_lt.mpr hfull
  rw [prune_policy, Instant.add?] at hhorizon
  have hbound : oldest + l.policy.window < Instant.horizon := by
    by_contra hbeyond
    rw [if_neg hbeyond] at hhorizon
    cases hhorizon
  rw [waitFor_eq_ite, if_pos hbound] at hwait
  rw [hqueue, prune_policy] at hlength
  rw [check_of_not_lt hnotfree]
  refine ⟨⟨⟨oldest, rest, hqueue, ?_, ?_⟩, ?_, ?_⟩, ?_⟩
  · exact Nat.le_antisymm hlength hfull
  · rw [prune_policy]
    omega
  · rw [prune_policy]
    omega
  · omega
  · omega

/-! ### From the announced instant on -/

/-- From this instant on there is a free slot. -/
def FreeFrom (l : Limiter) (expiry : ℕ) : Prop :=
  ∀ later : ℕ, expiry ≤ later → (l.prune later).admitted.length < l.policy.limit

/-- When the front leaves the window, a slot is free, and stays so. -/
lemma FullUntil.freeFrom (h : l.FullUntil expiry) : l.FreeFrom expiry := by
  intro later hlater
  obtain ⟨oldest, rest, hqueue, hfull, hexpiry⟩ := h.exists_front
  have hgone : expired l.policy.window later oldest = true := by
    rw [expired_iff]
    omega
  have hpruned : (l.prune later).admitted = rest.dropWhile (expired l.policy.window later) := by
    rw [Limiter.prune, hqueue]
    exact List.dropWhile_cons_of_pos hgone
  have hle := (List.dropWhile_suffix (expired l.policy.window later) (l := rest)).length_le
  rw [hpruned]
  omega

/-- Pruning once more does not fill a slot. -/
lemma FreeFrom.prune (h : l.FreeFrom expiry) (now : Instant) : (l.prune now).FreeFrom expiry := by
  intro later hlater
  have hle : ((l.prune now).prune later).admitted.length ≤ (l.prune later).admitted.length := by
    obtain ⟨gone, hgone⟩ := l.prune_suffix now
    show ((l.prune now).admitted.dropWhile (expired l.policy.window later)).length ≤
      (l.admitted.dropWhile (expired l.policy.window later)).length
    rw [← hgone, List.dropWhile_append]
    split_ifs
    · exact le_rfl
    · exact (List.dropWhile_suffix _).length_le.trans (by simp)
  exact hle.trans_lt (h later hlater)

/-- From the instant on from which a slot is free, a check is allowed. -/
lemma FreeFrom.allowed (h : l.FreeFrom expiry) (hnow : expiry ≤ now) :
    (l.check now).1 = .allowed := by
  rw [check_of_lt (h now hnow)]

/-! ### The whole countdown -/

/-- **Until the instant comes every check is denied**, and names what is left of the wait. -/
lemma FullUntil.denied_of_mem_answers (h : l.FullUntil expiry) {moves : List Move} {t : ℕ}
    {d : Decision} (ht : t < expiry) (hmem : (t, .decided d) ∈ gate.answers l now moves) :
    d = .denied (expiry - t) := by
  induction moves generalizing now with
  | nil => cases hmem
  | cons m rest ih =>
      have hnow : now < expiry := (le_of_mem_answers hmem).trans_lt ht
      rw [answers, List.mem_cons] at hmem
      cases m with
      | check =>
          have hcheck : gate.turn l now .check = (.decided (.denied (expiry - now)), l, now) := by
            show (Answer.decided (l.check now).1, (l.check now).2, now) = _
            rw [h.check_eq hnow]
          rw [hcheck] at hmem
          rcases hmem with hfirst | hlater
          · cases hfirst
            rfl
          · exact ih hlater
      | remaining =>
          have hsame : (gate.turn l now .remaining).2 = (l, now) := by
            show ((l.remaining now).2, now) = _
            rw [h.remaining_eq hnow]
          rw [hsame] at hmem
          rcases hmem with hfirst | hlater
          · cases hfirst
          · exact ih hlater
      | elapse d =>
          rcases hmem with hfirst | hlater
          · cases hfirst
          · exact ih hlater

/-- The instant lies ahead, or there has been no check since it came. -/
structure CountsDown (l : Limiter) (expiry now : ℕ) : Prop where
  full : now < expiry → l.FullUntil expiry
  free : l.FreeFrom expiry

/-- Whatever happens, short of a check that comes when the wait is over, the countdown goes on. -/
lemma CountsDown.turn (h : l.CountsDown expiry now) {m : Move} (hm : m = .check → now < expiry) :
    (gate.turn l now m).2.1.CountsDown expiry (gate.turn l now m).2.2 := by
  cases m with
  | check =>
      have hsame : (gate.turn l now .check).2 = (l, now) := by
        show ((l.check now).2, now) = _
        rw [(h.full (hm rfl)).check_eq (hm rfl)]
      rw [hsame]
      exact h
  | remaining =>
      constructor
      · intro hnow
        have hfull := h.full hnow
        have hsame : (l.remaining now).2 = l := hfull.remaining_eq hnow
        show (l.remaining now).2.FullUntil expiry
        rw [hsame]
        exact hfull
      · exact h.free.prune now
  | elapse d => exact ⟨fun hlater => h.full ((Nat.le_add_right now d).trans_lt hlater), h.free⟩

/-- **The first check from the instant on is admitted.** -/
lemma CountsDown.allowed_of_answers (h : l.CountsDown expiry now) {moves : List Move}
    {earlier rest : List (Instant × Answer)} {t : ℕ} {d : Decision} (ht : expiry ≤ t)
    (hanswers : gate.answers l now moves = earlier ++ (t, .decided d) :: rest)
    (hfirst : ∀ (s : ℕ) (d' : Decision), (s, .decided d') ∈ earlier → s < expiry) :
    d = .allowed := by
  induction moves generalizing l now earlier with
  | nil => simp [answers] at hanswers
  | cons m more ih =>
      rw [answers] at hanswers
      cases earlier with
      | nil =>
          rw [List.nil_append, List.cons.injEq] at hanswers
          cases m with
          | check =>
              obtain ⟨rfl, hd⟩ := Prod.mk.inj hanswers.1
              exact (Answer.decided.inj hd).symm.trans (h.free.allowed ht)
          | remaining | elapse => cases (Prod.mk.inj hanswers.1).2
      | cons a earlier =>
          rw [List.cons_append, List.cons.injEq] at hanswers
          obtain ⟨rfl, hmore⟩ := hanswers
          have hm : m = .check → now < expiry := by
            rintro rfl
            exact hfirst now _ List.mem_cons_self
          exact ih (h.turn hm) hmore fun s d' hs => hfirst s d' (List.mem_cons_of_mem _ hs)

/-- **A denial says exactly how long it lasts.**  Let a run of a fresh limiter with a positive limit
lead to a denial whose expiry can be represented.  The wait is not empty and no longer than the
window.  However the run goes on, every check before the wait is over is denied, with a wait that is
shorter by the time that has passed since, and the first check from then on is admitted. -/
theorem denied_until_expiry (p : Policy) (start : Instant) (before after : List Move) {wait : ℕ}
    (hlimit : 1 ≤ p.limit) :
    let l := (gate.after (fresh p) start before).1
    let now : ℕ := (gate.after (fresh p) start before).2
    (l.check now).1 = .denied wait → (l.prune now).FrontRepresentable →
    (0 < wait ∧ wait ≤ p.window) ∧
    (∀ (t : ℕ) (d : Decision), (t, .decided d) ∈ gate.answers (l.check now).2 now after →
      t < now + wait → d = .denied (wait - (t - now))) ∧
    ∀ (earlier rest : List (Instant × Answer)) (t : ℕ) (d : Decision),
      gate.answers (l.check now).2 now after = earlier ++ (t, .decided d) :: rest →
      now + wait ≤ t → (∀ (s : ℕ) (d' : Decision), (s, .decided d') ∈ earlier → s < now + wait) →
      d = .allowed := by
  intro l now hdenied hfront
  have hpolicy : l.policy = p :=
    after_induction (P := fun (l : Limiter) (_ : Instant) => l.policy = p)
      (fun l now m h => (policy_turn l now m).trans h) rfl before
  have htimely : l.Timely now := timely_after p start before
  have hpos : 0 < l.policy.limit := hpolicy ▸ hlimit
  obtain ⟨hfull, hwait⟩ := htimely.fullUntil_of_denied hpos hfront hdenied
  refine ⟨⟨wait_pos_of_denied hpos hdenied, hpolicy ▸ hwait⟩, fun t d hmem ht => ?_, ?_⟩
  · have hnow := le_of_mem_answers hmem
    have hleft : now + wait - t = wait - (t - now) := by omega
    rw [← hleft]
    exact hfull.denied_of_mem_answers ht hmem
  · intro earlier rest t d hanswers ht hfirst
    have hcounts : (l.check now).2.CountsDown (now + wait) now := ⟨fun _ => hfull, hfull.freeFrom⟩
    exact hcounts.allowed_of_answers ht hanswers hfirst

/-- Two slots in ten seconds, taken at the start and after four seconds: the check after five
seconds is denied for five seconds, the one two seconds later for three, and the one at the end of
the wait is admitted although a question came in between. -/
theorem denied_until_expiry_of_two :
    let l := (gate.after (fresh ⟨2, 10⟩) 0
      [.check, .elapse 4000000000, .check, .elapse 1000000000]).1
    (l.check 5000000000).1 = .denied 5000000000 ∧ (l.prune 5000000000).FrontRepresentable ∧
    ∃ d d', gate.answers (l.check 5000000000).2 5000000000
        [.remaining, .elapse 2000000000, .check, .elapse 3000000000, .remaining, .check] =
      [(5000000000, .left 0), (5000000000, .elapsed), (7000000000, .decided d),
        (7000000000, .elapsed), (10000000000, .left 1), (10000000000, .decided d')] ∧
      d = .denied 3000000000 ∧ d' = .allowed := by
  intro l
  have hdenied : (l.check 5000000000).1 = .denied 5000000000 := by decide +kernel
  have hfront : (l.prune 5000000000).FrontRepresentable := by
    intro oldest holdest
    have hzero : (l.prune 5000000000).admitted.head? = some 0 := by decide +kernel
    obtain rfl : 0 = oldest := Option.some.inj (hzero.symm.trans holdest)
    decide +kernel
  have hanswers : gate.answers (l.check 5000000000).2 5000000000
      [.remaining, .elapse 2000000000, .check, .elapse 3000000000, .remaining, .check] =
    [(5000000000, .left 0), (5000000000, .elapsed), (7000000000, .decided (.denied 3000000000)),
      (7000000000, .elapsed), (10000000000, .left 1), (10000000000, .decided .allowed)] := by
    decide +kernel
  obtain ⟨-, hbefore, hfrom⟩ := denied_until_expiry ⟨2, 10⟩ 0
    [.check, .elapse 4000000000, .check, .elapse 1000000000]
    [.remaining, .elapse 2000000000, .check, .elapse 3000000000, .remaining, .check]
    (by decide) hdenied hfront
  refine ⟨hdenied, hfront, _, _, hanswers, ?_, ?_⟩
  · exact hbefore 7000000000 _ (hanswers ▸ by simp) (by decide)
  · refine hfrom [(5000000000, .left 0), (5000000000, .elapsed),
      (7000000000, .decided (.denied 3000000000)), (7000000000, .elapsed), (10000000000, .left 1)]
      [] 10000000000 _ hanswers (by decide) ?_
    intro s d' hs
    have hone : s = 7000000000 ∧ d' = .denied 3000000000 := by simpa using hs
    rw [hone.1]
    decide

end Limiter

end CodeReview

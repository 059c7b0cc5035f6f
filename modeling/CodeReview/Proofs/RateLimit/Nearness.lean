import CodeReview.Proofs.RateLimit.Countdown
import CodeReview.Proofs.RateLimit.Ledger

/-!
# What one check more changes

A check that is admitted takes one slot for as long as its window lasts
(`Limiter.Mirrors.remaining_check`).  This is all, until the next check is made: that one may be
denied for want of the slot, and from then on the quota with the additional check and the quota
without it have different histories.  Whichever of the two has less free may so come to have more,
and the difference never dies out for good; but it does not grow either.  Whatever is asked later,
at the same instants with the check and without it, the numbers of free slots differ by one at most
(`Limiter.Mirrors.answers_near`).

The invariant is `Ledger.Near`.  It compares two ledgers not at one time but between any two times,
for a bound on the difference at each single time is not preserved: an admission counts at some
later times and no longer at others.
-/

namespace CodeReview

/-- The slots that a decision at time `now` takes at time `t`. -/
def Decision.slots (window : Duration) (now t : Instant) : Decision → ℕ
  | .allowed => if t - now < window then 1 else 0
  | .denied _ => 0

/-- Answers of one kind; numbers of free slots differ by one at most. -/
def Gate.Answer.Near : Answer → Answer → Prop
  | .left n, .left n' => n ≤ n' + 1 ∧ n' ≤ n + 1
  | .decided _, .decided _ | .elapsed, .elapsed => True
  | _, _ => False

/-- Numbers of free slots are near where they differ by one at most. -/
lemma Gate.Answer.near_left {n n' : ℕ} :
    (left n).Near (left n') ↔ n ≤ n' + 1 ∧ n' ≤ n + 1 := Iff.rfl

/-- Decisions are near, whatever they are. -/
lemma Gate.Answer.near_decided (d d' : Decision) : (decided d).Near (decided d') := trivial

/-- Answers to the same moves at the same times, each near the other. -/
def Gate.AllNear (as as' : List (Instant × Answer)) : Prop :=
  List.Forall₂ (fun a a' => a.1 = a'.1 ∧ a.2.Near a'.2) as as'

namespace Ledger

variable {k k' : Ledger} {now t : ℕ}

/-- Instants that count stop counting one after the other. -/
lemma length_live_le (k : Ledger) (hle : now ≤ t) : (k.live t).length ≤ (k.live now).length := by
  have hstill : ∀ a window : ℕ, t - a < window → now - a < window := by omega
  refine (List.monotone_filter_right k.admitted fun a ha => ?_).length_le
  rw [decide_eq_true_eq] at ha ⊢
  exact hstill a _ ha

/-- Nothing counts any more when the whole window has passed since the last instant. -/
lemma length_live_eq_zero (hpast : ∀ a ∈ k.admitted, a ≤ now) (hover : k.policy.window ≤ t - now) :
    (k.live t).length = 0 := by
  have hgone : ∀ a window : ℕ, a ≤ now → window ≤ t - now → ¬t - a < window := by omega
  rw [List.length_eq_zero_iff, live, List.filter_eq_nil_iff]
  intro a ha
  rw [decide_eq_true_eq]
  exact hgone a _ (hpast a ha) hover

/-- The ledger with one more admission. -/
def record (k : Ledger) (now : Instant) : Ledger := { k with admitted := k.admitted ++ [now] }

/-- An admission counts until its window has passed. -/
lemma length_live_record (k : Ledger) (now t : Instant) :
    ((k.record now).live t).length =
      (k.live t).length + if t - now < k.policy.window then 1 else 0 := by
  rw [live, record, List.filter_append, List.length_append]
  by_cases hcounts : t - now < k.policy.window
  · rw [if_pos hcounts, List.filter_cons_of_pos (by simpa using hcounts)]
    rfl
  · rw [if_neg hcounts, List.filter_cons_of_neg (by simpa using hcounts)]
    rfl

/-- No instant of a ledger lies ahead after an admission, where none did before. -/
lemma past_record (hpast : ∀ a ∈ k.admitted, a ≤ now) : ∀ a ∈ (k.record now).admitted, a ≤ now := by
  intro a ha
  rcases List.mem_append.mp ha with ha | ha
  · exact hpast a ha
  · exact (List.mem_singleton.mp ha).le

/-- A check is admitted where fewer instants count than the limit says. -/
lemma check_of_lt (h : (k.live now).length < k.policy.limit) :
    k.check now = (.allowed, k.record now) := if_pos h

/-- Otherwise it is denied, and the ledger is the same as before. -/
lemma check_of_not_lt (h : ¬(k.live now).length < k.policy.limit) :
    k.check now = (.denied (wait k.policy.window now (k.live now)), k) := if_neg h

/-- A check that is not allowed leaves the ledger as it is. -/
lemma check_of_ne_allowed (h : (k.check now).1 ≠ .allowed) : (k.check now).2 = k := by
  by_cases hlt : (k.live now).length < k.policy.limit
  · rw [check_of_lt hlt] at h
    exact absurd rfl h
  · rw [check_of_not_lt hlt]

/-- After a check those instants count that counted before, and its own where it takes a slot. -/
lemma length_live_check (k : Ledger) (now t : Instant) :
    ((k.check now).2.live t).length =
      (k.live t).length + (k.check now).1.slots k.policy.window now t := by
  by_cases hlt : (k.live now).length < k.policy.limit
  · rw [check_of_lt hlt]
    exact k.length_live_record now t
  · rw [check_of_not_lt hlt]
    rfl

/-! ### Two ledgers -/

/-- **Two ledgers are near**: from any time to any other, the number of instants that count in the
one gains at most one on the number of those that count in the other. -/
structure Near (k k' : Ledger) (now : Instant) : Prop where
  policy : k'.policy = k.policy
  past : ∀ a ∈ k.admitted, a ≤ now
  past' : ∀ a ∈ k'.admitted, a ≤ now
  gain : ∀ s t, (k.live t).length + (k'.live s).length ≤ (k'.live t).length + (k.live s).length + 1

/-- Every ledger is near itself. -/
lemma near_self (hpast : ∀ a ∈ k.admitted, a ≤ now) : k.Near k now :=
  ⟨rfl, hpast, hpast, fun _ _ => Nat.le_succ _⟩

/-- A ledger is near the one that it was before an admission. -/
lemma near_record (hpast : ∀ a ∈ k.admitted, a ≤ now) : (k.record now).Near k now where
  policy := rfl
  past := past_record hpast
  past' := hpast
  gain s t := by
    rw [length_live_record, length_live_record]
    split_ifs <;> omega

/-- A ledger is near the one that it was before a check. -/
lemma near_check (hpast : ∀ a ∈ k.admitted, a ≤ now) : (k.check now).2.Near k now := by
  by_cases hlt : (k.live now).length < k.policy.limit
  · rw [check_of_lt hlt]
    exact near_record hpast
  · rw [check_of_not_lt hlt]
    exact near_self hpast

namespace Near

/-- Nearness is mutual. -/
lemma symm (h : k.Near k' now) : k'.Near k now :=
  ⟨h.policy.symm, h.past', h.past, fun s t => by
    have hgain := h.gain t s
    omega⟩

/-- Ledgers that are near stay so while time passes. -/
lemma later (h : k.Near k' now) (d : ℕ) : k.Near k' (now + d) where
  policy := h.policy
  past a ha := (h.past a ha).trans (Nat.le_add_right now d)
  past' a ha := (h.past' a ha).trans (Nat.le_add_right now d)
  gain := h.gain

/-- The number of instants that count is greater by one at most.  It is compared with a time at which
nothing counts any more. -/
lemma length_live_le_succ (h : k.Near k' now) (t : Instant) :
    (k.live t).length ≤ (k'.live t).length + 1 := by
  obtain ⟨s, hover⟩ : ∃ s : ℕ, k.policy.window ≤ s - now :=
    ⟨now + k.policy.window, (Nat.add_sub_cancel_left now _).ge⟩
  have hzero := length_live_eq_zero h.past hover
  have hgain := h.gain s t
  omega

/-- Where both record the check, it counts at the same times in both. -/
lemma record_both (h : k.Near k' now) : (k.record now).Near (k'.record now) now where
  policy := h.policy
  past := past_record h.past
  past' := past_record h.past'
  gain s t := by
    have hgain := h.gain s t
    rw [length_live_record, length_live_record, length_live_record, length_live_record, h.policy]
    omega

/-- **Where only one admits the check**, fewer instants count in it now, hence no more at any other
time: so it may have the one that is added. -/
lemma record (h : k.Near k' now) (hfewer : (k.live now).length < (k'.live now).length) :
    (k.record now).Near k' now where
  policy := h.policy
  past := past_record h.past
  past' := h.past'
  gain s t := by
    have hgain := h.gain s t
    have hnow := h.gain now t
    rw [length_live_record, length_live_record]
    split_ifs with ht hs
    · omega
    · -- when the check counts no more, nothing else does
      have hover := length_live_eq_zero h.past' (h.policy.symm ▸ Nat.le_of_not_lt hs)
      omega
    · omega
    · omega

/-- **Ledgers that are near stay so when both are asked.** -/
lemma check (h : k.Near k' now) : (k.check now).2.Near (k'.check now).2 now := by
  have hpolicy := h.policy
  by_cases hlt : (k.live now).length < k.policy.limit
  · rw [check_of_lt hlt]
    by_cases hlt' : (k'.live now).length < k'.policy.limit
    · rw [check_of_lt hlt']
      exact h.record_both
    · rw [check_of_not_lt hlt']
      rw [hpolicy] at hlt'
      exact h.record (by omega)
  · rw [check_of_not_lt hlt]
    by_cases hlt' : (k'.live now).length < k'.policy.limit
    · rw [check_of_lt hlt']
      rw [hpolicy] at hlt'
      exact (h.symm.record (by omega)).symm
    · rwa [check_of_not_lt hlt']

/-- Ledgers that are near say that they have almost as many slots left. -/
lemma remaining (h : k.Near k' now) :
    (Gate.Answer.left (k.remaining now).1).Near (.left (k'.remaining now).1) := by
  have hle := h.length_live_le_succ now
  have hle' := h.symm.length_live_le_succ now
  rw [Ledger.remaining, Ledger.remaining, h.policy, Gate.Answer.near_left]
  omega

/-- Ledgers that are near answer a move at the same time, and stay near. -/
lemma turn (h : k.Near k' now) (m : Gate.Move) :
    (gate.turn k now m).1.Near (gate.turn k' now m).1 ∧
      (gate.turn k now m).2.2 = (gate.turn k' now m).2.2 ∧
      (gate.turn k now m).2.1.Near (gate.turn k' now m).2.1 (gate.turn k' now m).2.2 := by
  cases m with dsimp only [Gate.turn, gate]
  | check => exact ⟨Gate.Answer.near_decided _ _, rfl, h.check⟩
  | remaining => exact ⟨h.remaining, rfl, h⟩
  | elapse d => exact ⟨trivial, rfl, h.later d⟩

end Near

end Ledger

namespace Limiter

open Gate

variable {l l' : Limiter} {k k' : Ledger} {now t : ℕ}

/-- The free slots at a later time are counted in the ledger that the limiter mirrors. -/
lemma Mirrors.remaining_eq (h : l.Mirrors k now) (hle : now ≤ t) :
    (l.remaining t).1 = k.policy.limit - (k.live t).length := by
  obtain ⟨d, rfl⟩ := Nat.exists_eq_add_of_le hle
  rw [← (h.later d).prune_admitted, ← h.policy]
  rfl

/-- As long as no check is made the limiter mirrors the same ledger. -/
lemma Mirrors.after {moves : List Move} (h : l.Mirrors k now) (hfree : .check ∉ moves) :
    (gate.after l now moves).1.Mirrors k (gate.after l now moves).2 := by
  induction moves generalizing l now with
  | nil => exact h
  | cons m rest ih =>
      have hfirst := List.ne_of_not_mem_cons hfree
      have hrest := List.not_mem_of_not_mem_cons hfree
      cases m with
      | check => exact absurd rfl hfirst
      | remaining => exact ih h.pruned hrest
      | elapse d => exact ih (h.later d) hrest

/-- As long as no check is made, asking for the free slots does not change how many there are. -/
lemma Mirrors.remaining_after {moves : List Move} (h : l.Mirrors k now) (hfree : .check ∉ moves)
    (ht : (gate.after l now moves).2 ≤ t) :
    ((gate.after l now moves).1.remaining t).1 = (l.remaining t).1 := by
  rw [(h.after hfree).remaining_eq ht, h.remaining_eq ((gate.le_after l now moves).trans ht)]

/-- **A check takes one slot where it is allowed**, for as long as its window lasts. -/
lemma Mirrors.remaining_check (h : l.Mirrors k now) (hle : now ≤ t) :
    ((l.check now).2.remaining t).1 + (l.check now).1.slots l.policy.window now t =
      (l.remaining t).1 := by
  obtain ⟨hdecision, hmirrors⟩ := h.check
  rw [hmirrors.remaining_eq hle, h.remaining_eq hle, hdecision, h.policy, k.length_live_check]
  have hlive := k.length_live_le hle
  by_cases hlt : (k.live now).length < k.policy.limit
  · rw [Ledger.check_of_lt hlt]
    dsimp only [Decision.slots, Ledger.record]
    split_ifs <;> omega
  · rw [Ledger.check_of_not_lt hlt]
    rfl

/-- A request is admitted where a slot is left. -/
lemma check_eq_allowed_iff (l : Limiter) (t : Instant) :
    (l.check t).1 = .allowed ↔ 0 < (l.remaining t).1 := by
  rw [remaining, Nat.sub_pos_iff_lt, prune_policy]
  refine ⟨lt_limit_of_check, fun hlt => ?_⟩
  rw [check_of_lt hlt]

/-- **Limiters whose ledgers are near give answers that are near**, whatever they are asked. -/
lemma Mirrors.answers_near (h : l.Mirrors k now) (h' : l'.Mirrors k' now) (hnear : k.Near k' now)
    (moves : List Move) : AllNear (gate.answers l now moves) (gate.answers l' now moves) := by
  rw [h.answers_eq, h'.answers_eq]
  exact answers_forall₂_of_related (fun _ _ _ m hnear => hnear.turn m) hnear moves

/-- With one slot in a minute: after a check that is made at once, one half a minute later is denied
and leaves a slot after a minute, and without the first check it is admitted and leaves none. -/
example :
    let moves : List Move := [.elapse 30000000000, .check, .remaining, .elapse 31000000000, .remaining]
    (gate.answers ((fresh ⟨1, 60⟩).check 0).2 0 moves).map Prod.snd =
        [.elapsed, .decided (.denied 30000000000), .left 0, .elapsed, .left 1] ∧
      (gate.answers (fresh ⟨1, 60⟩) 0 moves).map Prod.snd =
        [.elapsed, .decided .allowed, .left 0, .elapsed, .left 0] := by
  decide +kernel

end Limiter

end CodeReview

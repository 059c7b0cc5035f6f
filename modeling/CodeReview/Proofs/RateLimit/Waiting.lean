import CodeReview.Proofs.RateLimit.History

/-!
# Denials, and how long they last

A limiter denies only where its queue is full, so that with a positive limit there is a front whose
expiry the denial waits for (`exists_front_of_denied`).  Two things follow.

* `wait_pos_of_denied`: no denial asks for an empty wait, whatever the queue holds and in whatever
  order the readings came.
* `allowed_of_waited`: once the wait is over the front has expired, and a queue that held no more
  than the limit has a free slot -- provided that nobody was admitted in the meantime (`Dwindles`),
  and that the expiry can be represented; where it cannot, the wait is a whole window counted from
  the denial and not from the front.

That the queue of a limiter holds no more than the limit is the invariant `Reachable.length_le`.
-/

namespace CodeReview.Limiter

variable {l l' : Limiter} {now later wait : ℕ}

/-! ### The limiters that there can be -/

/-- The limiter comes from a fresh one by checks and questions for the free slots, at whatever
readings of the clock. -/
inductive Reachable : Limiter → Prop
  | fresh (p : Policy) : Reachable (.fresh p)
  | check {l : Limiter} (h : Reachable l) (now : Instant) : Reachable (l.check now).2
  | remaining {l : Limiter} (h : Reachable l) (now : Instant) : Reachable (l.remaining now).2

/-- Pruning leaves an end of the queue. -/
lemma prune_suffix (l : Limiter) (now : Instant) : (l.prune now).admitted <:+ l.admitted :=
  List.dropWhile_suffix _

/-- A check does not fill the queue beyond the limit. -/
lemma length_check_le (h : l.admitted.length ≤ l.policy.limit) (now : Instant) :
    (l.check now).2.admitted.length ≤ (l.check now).2.policy.limit := by
  rw [check_policy]
  by_cases hlt : (l.prune now).admitted.length < l.policy.limit
  · rw [check_of_lt hlt]
    simpa using hlt
  · rw [check_of_not_lt hlt]
    exact (l.prune_suffix now).length_le.trans h

/-- **The queue never holds more than the limit.** -/
lemma Reachable.length_le (h : l.Reachable) : l.admitted.length ≤ l.policy.limit := by
  induction h with
  | fresh p => exact Nat.zero_le _
  | check _ now ih => exact length_check_le ih now
  | remaining _ now ih => exact (prune_suffix _ now).length_le.trans ih

/-! ### Denials -/

/-- Pruning stops at an instant that is not expired. -/
lemma not_expired_of_prune {oldest : Instant} {rest : List Instant}
    (h : (l.prune now).admitted = oldest :: rest) : now - oldest < l.policy.window := by
  have hfront := List.head?_dropWhile_not (expired l.policy.window now) l.admitted
  have hqueue : l.admitted.dropWhile (expired l.policy.window now) = oldest :: rest := h
  simp only [hqueue, List.head?_cons] at hfront
  by_contra hle
  rw [expired_iff.mpr (Nat.not_lt.mp hle)] at hfront
  cases hfront

/-- Where nothing is left of the queue, a positive limit allows. -/
lemma allowed_of_empty (hlimit : 0 < l.policy.limit) (h : (l.prune now).admitted = []) :
    (l.check now).1 = .allowed := by
  rw [check_of_lt (by rwa [h])]

/-- **A denial waits for the front of a full queue.** -/
lemma exists_front_of_denied (hlimit : 0 < l.policy.limit) (h : (l.check now).1 = .denied wait) :
    ∃ oldest rest, (l.prune now).admitted = oldest :: rest ∧
      l.policy.limit ≤ (oldest :: rest).length ∧ now - oldest < l.policy.window ∧
      wait = waitFor l.policy.window now oldest := by
  by_cases hlt : (l.prune now).admitted.length < l.policy.limit
  · rw [check_of_lt hlt] at h
    cases h
  · rw [check_of_not_lt hlt] at h
    cases hqueue : (l.prune now).admitted with
    | nil =>
        rw [hqueue] at hlt
        exact absurd hlimit hlt
    | cons oldest rest =>
        refine ⟨oldest, rest, rfl, ?_, not_expired_of_prune hqueue, ?_⟩
        · rw [← hqueue]
          exact Nat.not_lt.mp hlt
        · have hwait : (l.prune now).wait now = waitFor l.policy.window now oldest := by
            rw [Limiter.wait, hqueue]
            rfl
          exact (Decision.denied.inj h).symm.trans hwait

/-- **No denial asks for an empty wait.** -/
lemma wait_pos_of_denied (hlimit : 0 < l.policy.limit) (h : (l.check now).1 = .denied wait) :
    0 < wait := by
  obtain ⟨oldest, rest, -, -, hlive, rfl⟩ := exists_front_of_denied hlimit h
  rw [waitFor_eq_ite]
  split_ifs <;> omega

/-! ### After the wait -/

/-- Nobody was admitted between the two: the queue may have lost instants from its front. -/
structure Dwindles (l l' : Limiter) : Prop where
  policy : l'.policy = l.policy
  admitted : l'.admitted <:+ l.admitted

/-- A limiter that is left as it is has lost nothing, in the wide sense. -/
lemma dwindles_refl (l : Limiter) : l.Dwindles l := ⟨rfl, List.suffix_rfl⟩

/-- The instant at which the front of the queue expires can be represented, if there is a front. -/
def FrontRepresentable (l : Limiter) : Prop :=
  ∀ oldest ∈ l.admitted.head?, (oldest.add? l.policy.window).isSome

/-- **Once the wait of a denial is over, the next request is admitted**, unless somebody else was
admitted in the meantime. -/
lemma allowed_of_waited (hlen : l.admitted.length ≤ l.policy.limit) (hlimit : 0 < l.policy.limit)
    (hfront : (l.prune now).FrontRepresentable) (hdenied : (l.check now).1 = .denied wait)
    (hdwindles : (l.check now).2.Dwindles l') (hlater : now + wait ≤ later) :
    (l'.check later).1 = .allowed := by
  obtain ⟨oldest, rest, hqueue, hfull, -, hwait⟩ := exists_front_of_denied hlimit hdenied
  have hleft : (l.check now).2 = l.prune now :=
    congrArg Prod.snd (check_of_not_lt (by rw [hqueue]; exact Nat.not_lt.mpr hfull))
  obtain ⟨hpolicy, hsuffix⟩ := hdwindles
  rw [hleft] at hpolicy hsuffix
  rw [prune_policy] at hpolicy
  -- the front has expired by then
  have hexpired : expired l.policy.window later oldest = true := by
    have hsome := hfront oldest (by rw [hqueue]; rfl)
    rw [prune_policy, Instant.add?] at hsome
    have hhorizon : oldest + l.policy.window < Instant.horizon := by
      by_contra hbeyond
      rw [if_neg hbeyond] at hsome
      cases hsome
    rw [waitFor_eq_ite, if_pos hhorizon] at hwait
    rw [expired_iff]
    omega
  -- so that at least one slot of the limit is free
  have hshort : (l'.prune later).admitted.length ≤ rest.length := by
    rw [hqueue, List.suffix_cons_iff] at hsuffix
    rcases hsuffix with heq | hrest
    · have hpruned : (l'.prune later).admitted =
          rest.dropWhile (expired l.policy.window later) := by
        rw [Limiter.prune, hpolicy, heq]
        exact List.dropWhile_cons_of_pos hexpired
      rw [hpruned]
      exact (List.dropWhile_suffix _).length_le
    · exact ((l'.prune_suffix later).trans hrest).length_le
  have hqueued : rest.length + 1 ≤ l.admitted.length := by
    have hle := (l.prune_suffix now).length_le
    rwa [hqueue, List.length_cons] at hle
  have hfree : (l'.prune later).admitted.length < l'.policy.limit := by
    rw [hpolicy]
    omega
  rw [check_of_lt hfree]

end CodeReview.Limiter

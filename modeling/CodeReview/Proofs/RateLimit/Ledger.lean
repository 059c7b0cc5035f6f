import CodeReview.Proofs.RateLimit.Moves
import Mathlib.Data.List.MinMax

/-!
# The limiter against a ledger that forgets nothing

A `Ledger` keeps every instant that it ever admitted and works out afresh, for each request, which
of them are live.  It has no queue to keep in order and nothing to prune, and only an admission
changes it.

The main result, `answers_eq_ledger`, says that a limiter gives the answers of the ledger in every
run, for every policy; that the limiter's queue is changed by questions and by denials cannot be
seen from outside.

The simulation is `Mirrors`.  It needs the order of the history, which the window bounds do not:
only where the queue is sorted does dropping expired instants from its front drop all of them.
-/

namespace CodeReview

/-- A policy and all instants that were ever admitted. -/
structure Ledger where
  policy : Policy
  admitted : List Instant
  deriving Repr, DecidableEq

namespace Ledger

/-- A ledger without admissions. -/
def empty (p : Policy) : Ledger := ⟨p, []⟩

/-- The instants that count at time `now`. -/
def live (k : Ledger) (now : Instant) : List Instant :=
  k.admitted.filter fun a => now - a < k.policy.window

/-- Time from `now` until the oldest of the instants has left the window; nothing where there is
none, and the whole window where that instant cannot be represented. -/
def wait (window : Duration) (now : Instant) (instants : List Instant) : Duration :=
  match instants.min? with
  | none => 0
  | some oldest => if oldest + window < Instant.horizon then oldest + window - now else window

/-- Ask for admission. -/
def check (k : Ledger) (now : Instant) : Decision × Ledger :=
  if (k.live now).length < k.policy.limit then
    (.allowed, { k with admitted := k.admitted ++ [now] })
  else (.denied (wait k.policy.window now (k.live now)), k)

/-- How many requests could be admitted. -/
def remaining (k : Ledger) (now : Instant) : Nat × Ledger :=
  (k.policy.limit - (k.live now).length, k)

/-- A ledger as a gate. -/
def gate : Gate Ledger := ⟨check, remaining⟩

end Ledger

namespace Limiter

open Gate

/-- The queue of `l` has the live end of the sorted history in `k`, none of which is later than
`now`. -/
structure Mirrors (l : Limiter) (k : Ledger) (now : Instant) : Prop where
  policy : l.policy = k.policy
  accounts : l.Accounts k.admitted now
  sorted : k.admitted.Pairwise (· ≤ ·)
  past : ∀ a ∈ k.admitted, a ≤ now

variable {l : Limiter} {k : Ledger} {now : ℕ}

/-! ### Pruning a sorted queue -/

/-- What is older than an expired instant has expired. -/
lemma expired_of_le {window now a b : ℕ} (hab : a ≤ b) (h : expired window now b = true) :
    expired window now a = true := by
  rw [expired_iff] at h ⊢
  omega

/-- In a sorted queue the instants that are not expired are those behind the expired front. -/
lemma filter_eq_dropWhile {window now : ℕ} {as : List ℕ} (hs : as.Pairwise (· ≤ ·)) :
    as.filter (fun a => !expired window now a) = as.dropWhile (expired window now) := by
  induction as with
  | nil => rfl
  | cons b rest ih =>
      obtain ⟨hb, hrest⟩ := List.pairwise_cons.mp hs
      by_cases hexp : expired window now b = true
      · rw [List.dropWhile_cons_of_pos hexp, List.filter_cons_of_neg (by simp [hexp]), ih hrest]
      · rw [List.dropWhile_cons_of_neg hexp, List.filter_eq_self]
        intro a ha
        have hba : b ≤ a := by
          rcases List.mem_cons.mp ha with rfl | ha
          · exact le_rfl
          · exact hb a ha
        simpa using fun ha => hexp (expired_of_le hba ha)

/-- Pruning leaves exactly the live instants. -/
lemma Mirrors.prune_admitted (h : l.Mirrors k now) : (l.prune now).admitted = k.live now := by
  obtain ⟨gone, hhist, hgone⟩ := h.accounts
  have hsorted : l.admitted.Pairwise (· ≤ ·) := by
    have hs := h.sorted
    rw [hhist] at hs
    exact (List.pairwise_append.mp hs).2.1
  have hlive : ∀ a : ℕ, decide (now - a < k.policy.window) = !expired l.policy.window now a := by
    intro a
    rw [← h.policy, expired, ← decide_not, decide_eq_decide]
    exact Nat.not_le.symm
  have hdrop : gone.filter (fun a => !expired l.policy.window now a) = [] := by
    rw [List.filter_eq_nil_iff]
    intro a ha
    simp [hgone a ha]
  unfold Ledger.live
  simp only [hlive]
  rw [hhist, List.filter_append, hdrop, List.nil_append, filter_eq_dropWhile hsorted]
  rfl

/-- The live instants of a sorted history are sorted. -/
lemma Mirrors.live_sorted (h : l.Mirrors k now) : (k.live now).Pairwise (· ≤ ·) :=
  h.sorted.sublist List.filter_sublist

/-- The wait that a limiter reads off the front of its queue is the ledger's. -/
lemma Mirrors.wait_eq (h : l.Mirrors k now) :
    (l.prune now).wait now = Ledger.wait k.policy.window now (k.live now) := by
  have hmin : (k.live now).min? = (k.live now).head? :=
    List.min?_eq_head? (h.live_sorted.imp fun hab => min_eq_left hab)
  rw [wait, h.prune_admitted, prune_policy, h.policy, Ledger.wait, hmin]
  cases k.live now with
  | nil => rfl
  | cons oldest rest => exact waitFor_eq_ite _ _ _

/-! ### The simulation -/

/-- A fresh limiter mirrors the empty ledger. -/
lemma mirrors_fresh (p : Policy) (start : Instant) : (fresh p).Mirrors (.empty p) start :=
  ⟨rfl, accounts_fresh p start, List.Pairwise.nil, by simp [Ledger.empty]⟩

/-- While time passes, a limiter goes on mirroring its ledger. -/
lemma Mirrors.later (h : l.Mirrors k now) (d : ℕ) : l.Mirrors k (now + d) :=
  ⟨h.policy, h.accounts.mono (Nat.le_add_right now d), h.sorted,
    fun a ha => (h.past a ha).trans (Nat.le_add_right now d)⟩

/-- A limiter that is pruned mirrors the same ledger. -/
lemma Mirrors.pruned (h : l.Mirrors k now) : (l.prune now).Mirrors k now :=
  ⟨h.policy, h.accounts.prune_self, h.sorted, h.past⟩

/-- Limiter and ledger give the same decision and go on mirroring each other. -/
lemma Mirrors.check (h : l.Mirrors k now) :
    (l.check now).1 = (k.check now).1 ∧ (l.check now).2.Mirrors (k.check now).2 now := by
  by_cases hlt : (l.prune now).admitted.length < l.policy.limit
  · have hlt' := hlt
    rw [h.prune_admitted, h.policy] at hlt'
    have haccounts := h.accounts.check_self
    rw [check_of_lt hlt] at haccounts ⊢
    rw [Ledger.check, if_pos hlt']
    refine ⟨rfl, h.policy, haccounts, ?_, ?_⟩
    · refine List.pairwise_append.mpr ⟨h.sorted, List.pairwise_singleton _ _, fun a ha b hb => ?_⟩
      rw [List.mem_singleton.mp hb]
      exact h.past a ha
    · intro a ha
      rcases List.mem_append.mp ha with ha | ha
      · exact h.past a ha
      · exact (List.mem_singleton.mp ha).le
  · have hlt' := hlt
    rw [h.prune_admitted, h.policy] at hlt'
    rw [check_of_not_lt hlt, Ledger.check, if_neg hlt', h.wait_eq]
    exact ⟨rfl, h.pruned⟩

/-- Limiter and ledger answer a move alike and go on mirroring each other. -/
lemma Mirrors.turn (h : l.Mirrors k now) (m : Move) :
    (gate.turn l now m).1 = (Ledger.gate.turn k now m).1 ∧
      (gate.turn l now m).2.2 = (Ledger.gate.turn k now m).2.2 ∧
      (gate.turn l now m).2.1.Mirrors (Ledger.gate.turn k now m).2.1
        (Ledger.gate.turn k now m).2.2 := by
  cases m with
  | check => exact ⟨congrArg _ h.check.1, rfl, h.check.2⟩
  | remaining =>
      refine ⟨?_, rfl, h.pruned⟩
      change Answer.left (l.policy.limit - (l.prune now).admitted.length) = _
      rw [h.prune_admitted, h.policy]
      rfl
  | elapse d => exact ⟨rfl, rfl, h.later d⟩

/-- **A limiter answers as the ledger that it mirrors**, in every run. -/
lemma Mirrors.answers_eq (h : l.Mirrors k now) (moves : List Move) :
    gate.answers l now moves = Ledger.gate.answers k now moves :=
  answers_eq_of_related (fun _ _ _ m hR => Mirrors.turn hR m) h moves

end Limiter

/-! ### Moves that leave no trace -/

namespace Gate

/-- A denial or a number of free slots: an answer that admits nothing and takes no time. -/
def Answer.isIdle : Answer → Bool
  | .decided (.denied _) | .left _ => true
  | .decided .allowed | .elapsed => false

/-- Where idle answers change nothing, leaving one out changes no other answer. -/
lemma answers_eraseIdx {σ : Type} {g : Gate σ}
    (hidle : ∀ s now m, (g.turn s now m).1.isIdle = true → (g.turn s now m).2 = (s, now))
    (s : σ) (now : Instant) (moves : List Move) (i : ℕ) {t : Instant} {a : Answer}
    (ha : (g.answers s now moves)[i]? = some (t, a)) (hq : a.isIdle = true) :
    g.answers s now (moves.eraseIdx i) = (g.answers s now moves).eraseIdx i := by
  induction moves generalizing s now i with
  | nil => rfl
  | cons m rest ih =>
      cases i with
      | zero =>
          rw [answers, List.getElem?_cons_zero, Option.some.injEq, Prod.mk.injEq] at ha
          have hsame := hidle s now m (ha.2 ▸ hq)
          rw [answers, hsame]
          rfl
      | succ i =>
          rw [answers, List.getElem?_cons_succ] at ha
          rw [answers, List.eraseIdx_cons_succ, List.eraseIdx_cons_succ, answers, ih _ _ i ha]

end Gate

/-- A ledger is changed by admissions alone. -/
lemma Ledger.turn_of_isIdle (k : Ledger) (now : Instant) (m : Gate.Move)
    (h : (Ledger.gate.turn k now m).1.isIdle = true) : (Ledger.gate.turn k now m).2 = (k, now) := by
  cases m with
  | check =>
      simp only [Gate.turn, Ledger.gate, Ledger.check] at h ⊢
      split_ifs at h ⊢ with hlt
      · cases h
      · rfl
  | remaining => rfl
  | elapse d => cases h

/-- **A limiter answers as if it never forgot.** In every run each answer of a fresh limiter is the
answer of the ledger that keeps all admissions; and leaving out a question for the free slots or a
check that is denied leaves all other answers as they are. -/
theorem Limiter.answers_eq_ledger (p : Policy) (start : Instant) (moves : List Gate.Move) :
    Limiter.gate.answers (.fresh p) start moves = Ledger.gate.answers (.empty p) start moves ∧
      ∀ (i : ℕ) (t : Instant) (a : Gate.Answer),
        (Limiter.gate.answers (.fresh p) start moves)[i]? = some (t, a) → a.isIdle = true →
        Limiter.gate.answers (.fresh p) start (moves.eraseIdx i) =
          (Limiter.gate.answers (.fresh p) start moves).eraseIdx i := by
  have hsame : ∀ ms, Limiter.gate.answers (.fresh p) start ms =
      Ledger.gate.answers (.empty p) start ms := (mirrors_fresh p start).answers_eq
  refine ⟨hsame moves, fun i t a ha hq => ?_⟩
  rw [hsame] at ha
  rw [hsame, hsame]
  exact Gate.answers_eraseIdx Ledger.turn_of_isIdle _ start moves i ha hq

/-- With one slot and ten seconds: leaving out the denied check leaves the other answers. -/
theorem Limiter.answers_without_denied :
    (Limiter.gate.answers (.fresh ⟨1, 10⟩) 0
        [.check, .remaining, .check, .elapse 10000000000, .check])[2]? =
      some (0, .decided (.denied 10000000000)) ∧
    Limiter.gate.answers (.fresh ⟨1, 10⟩) 0 [.check, .remaining, .elapse 10000000000, .check] =
      (Limiter.gate.answers (.fresh ⟨1, 10⟩) 0
        [.check, .remaining, .check, .elapse 10000000000, .check]).eraseIdx 2 := by
  have hdenied : (Limiter.gate.answers (.fresh ⟨1, 10⟩) 0
      [.check, .remaining, .check, .elapse 10000000000, .check])[2]? =
        some (0, .decided (.denied 10000000000)) := by decide +kernel
  exact ⟨hdenied, (Limiter.answers_eq_ledger ⟨1, 10⟩ 0
    [.check, .remaining, .check, .elapse 10000000000, .check]).2 2 _ _ hdenied rfl⟩

end CodeReview

import CodeReview.Proofs.RateLimit.History

/-!
# Runs of a limiter

A run is a list of moves: checks, questions for the free slots, and spans of time that pass.  A
`Gate` is anything that answers them, so that one notion of run serves the limiter and whatever it
is compared with.

The main result, `countP_admissions_le_limit`, is about every run of a fresh limiter and every
half-open window of the policy's length, not only those that end at a check.  No hypothesis on the
policy is needed: where the limit or the time frame is zero the window holds nothing.
-/

namespace CodeReview

/-- What answers requests for admission and says how many more it would admit. -/
structure Gate (σ : Type) where
  check : σ → Instant → Decision × σ
  remaining : σ → Instant → Nat × σ

namespace Gate

/-- What may happen to a gate. -/
inductive Move where
  | check
  | remaining
  | elapse (d : Duration)
  deriving Repr, DecidableEq

/-- What comes of a move. -/
inductive Answer where
  | decided (d : Decision)
  | left (n : Nat)
  | elapsed
  deriving Repr, DecidableEq

variable {σ τ : Type}

/-- The answer to a move at time `now`, with the gate and the time afterwards. -/
def turn (g : Gate σ) (s : σ) (now : Instant) : Move → Answer × σ × Instant
  | .check => (.decided (g.check s now).1, (g.check s now).2, now)
  | .remaining => (.left (g.remaining s now).1, (g.remaining s now).2, now)
  | .elapse d => (.elapsed, s, now + d)

/-- The answers to the moves of a run, each with the time at which it is given. -/
def answers (g : Gate σ) (s : σ) (now : Instant) : List Move → List (Instant × Answer)
  | [] => []
  | m :: rest =>
    (now, (g.turn s now m).1) :: g.answers (g.turn s now m).2.1 (g.turn s now m).2.2 rest

/-- What an answer at an instant adds to the history of admissions. -/
def Answer.admitted (now : Instant) : Answer → List Instant
  | .decided d => d.admitted now
  | .left _ | .elapsed => []

/-- The instants of the checks that were allowed. -/
def admissions (as : List (Instant × Answer)) : List Instant :=
  as.flatMap fun a => a.2.admitted a.1

/-- Without answers nothing is admitted. -/
@[simp] lemma admissions_nil : admissions [] = [] := rfl

/-- Admissions are gathered answer by answer. -/
@[simp] lemma admissions_cons (now : Instant) (a : Answer) (rest : List (Instant × Answer)) :
    admissions ((now, a) :: rest) = a.admitted now ++ admissions rest := rfl

/-- Gates that are asked the same in related states, and stay related, give related answers at the
same times. -/
lemma answers_forall₂_of_related {g : Gate σ} {h : Gate τ} {R : σ → τ → Instant → Prop}
    {Q : Answer → Answer → Prop}
    (hturn : ∀ s t now m, R s t now → Q (g.turn s now m).1 (h.turn t now m).1 ∧
      (g.turn s now m).2.2 = (h.turn t now m).2.2 ∧
      R (g.turn s now m).2.1 (h.turn t now m).2.1 (h.turn t now m).2.2)
    {s : σ} {t : τ} {now : Instant} (hR : R s t now) (moves : List Move) :
    List.Forall₂ (fun a b => a.1 = b.1 ∧ Q a.2 b.2) (g.answers s now moves)
      (h.answers t now moves) := by
  induction moves generalizing s t now with
  | nil => exact .nil
  | cons m rest ih =>
      obtain ⟨hanswer, htime, hnext⟩ := hturn s t now m hR
      rw [answers, answers, htime]
      exact .cons ⟨rfl, hanswer⟩ (ih hnext)

/-- Gates that answer alike in related states, and stay related, answer every run alike. -/
lemma answers_eq_of_related {g : Gate σ} {h : Gate τ} {R : σ → τ → Instant → Prop}
    (hturn : ∀ s t now m, R s t now → (g.turn s now m).1 = (h.turn t now m).1 ∧
      (g.turn s now m).2.2 = (h.turn t now m).2.2 ∧
      R (g.turn s now m).2.1 (h.turn t now m).2.1 (h.turn t now m).2.2)
    {s : σ} {t : τ} {now : Instant} (hR : R s t now) (moves : List Move) :
    g.answers s now moves = h.answers t now moves := by
  have hall := answers_forall₂_of_related (Q := (· = ·)) hturn hR moves
  exact List.forall₂_eq_eq_eq ▸ hall.imp fun _ _ hsame => Prod.ext hsame.1 hsame.2

end Gate

namespace Limiter

open Gate

/-- A limiter as a gate. -/
def gate : Gate Limiter := ⟨check, remaining⟩

/-- A run from a queue that accounts for its history adds admissions without overfilling any
window. -/
lemma respects_admissions {l : Limiter} {history : List Instant} {now : ℕ}
    (h : l.Accounts history now) (hr : l.policy.Respects history) (moves : List Move) :
    l.policy.Respects (history ++ admissions (gate.answers l now moves)) := by
  induction moves generalizing l history now with
  | nil => simpa [Gate.answers] using hr
  | cons m rest ih =>
      rw [Gate.answers, admissions_cons, ← List.append_assoc]
      cases m with
      | check =>
          have hstep := h.respects_check le_rfl hr
          rw [← check_policy l now] at hstep ⊢
          exact ih h.check_self hstep
      | remaining =>
          rw [Gate.turn, Answer.admitted, List.append_nil]
          exact ih h.prune_self hr
      | elapse d =>
          rw [Gate.turn, Answer.admitted, List.append_nil]
          exact ih (h.mono (Nat.le_add_right now d)) hr

/-- **No window is overfilled.** In every run of a fresh limiter, each half-open window of the
policy's length contains at most `limit` checks that were allowed. -/
theorem countP_admissions_le_limit (p : Policy) (start : Instant) (moves : List Move)
    (t : Instant) :
    (admissions (gate.answers (fresh p) start moves)).countP (t.inWindow p.window) ≤ p.limit :=
  respects_admissions (accounts_fresh p start) (respects_nil p) moves t

end Limiter

end CodeReview

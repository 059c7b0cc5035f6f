import CodeReview.RateLimit.Limiter
import Mathlib.Data.List.TakeWhile
import Mathlib.Tactic

/-!
# The queue of a limiter and the history behind it

A limiter forgets.  What its queue still says about all instants that it ever admitted is stated
here as `Limiter.Accounts`: the queue is the end of the history, and everything before it has left
the window by some reading of the clock.  Nothing is assumed about the order of the readings, so
that the statement also serves callers that use old ones.

Two consequences carry the bounds of the other modules.

* `Accounts.countP_le`: in a window that holds a reading no older than all readings before, the
  queue holds everything that the history holds.
* `Accounts.respects_check`: a check at such a reading keeps every window within the limit.
-/

namespace CodeReview

/-- An instant lies in the half-open window that begins at `t`. -/
def Instant.inWindow (t : Instant) (window : Duration) (a : Instant) : Bool :=
  t ≤ a && a < t + window

/-- What it is to lie in a window, as inequalities. -/
lemma Instant.inWindow_iff {t window a : ℕ} :
    Instant.inWindow t window a = true ↔ t ≤ a ∧ a < t + window := by
  simp [Instant.inWindow]

/-- What a decision at an instant adds to the history. -/
def Decision.admitted (now : Instant) : Decision → List Instant
  | .allowed => [now]
  | .denied _ => []

/-- No window holds more instants than the policy admits. -/
def Policy.Respects (p : Policy) (history : List Instant) : Prop :=
  ∀ t, history.countP (Instant.inWindow t p.window) ≤ p.limit

/-- Part of a history that respects a policy does so, too. -/
lemma Policy.Respects.sublist {p : Policy} {history part : List Instant} (h : p.Respects history)
    (hsub : part.Sublist history) : p.Respects part :=
  fun t => hsub.countP_le.trans (h t)

namespace Limiter

variable {l : Limiter} {history : List Instant} {latest now : ℕ}

/-! ### What one step does -/

/-- Pruning does not change the policy. -/
@[simp] lemma prune_policy (l : Limiter) (now : Instant) : (l.prune now).policy = l.policy := rfl

/-- A check does not change the policy. -/
@[simp] lemma check_policy (l : Limiter) (now : Instant) : (l.check now).2.policy = l.policy := by
  unfold check
  dsimp only
  split_ifs <;> rfl

/-- A request with a free slot is admitted and recorded behind what pruning leaves. -/
lemma check_of_lt (h : (l.prune now).admitted.length < l.policy.limit) :
    l.check now = (.allowed, { l.prune now with admitted := (l.prune now).admitted ++ [now] }) := by
  unfold check
  exact if_pos h

/-- A request without a free slot only prunes. -/
lemma check_of_not_lt (h : ¬ (l.prune now).admitted.length < l.policy.limit) :
    l.check now = (.denied ((l.prune now).wait now), l.prune now) := by
  unfold check
  exact if_neg h

/-- The wait until an instant leaves the window, in one comparison. -/
lemma waitFor_eq_ite (window : Duration) (now oldest : Instant) : waitFor window now oldest =
    if oldest + window < Instant.horizon then oldest + window - now else window := by
  unfold waitFor Instant.add?
  by_cases h : oldest + window < Instant.horizon
  · rw [if_pos h, if_pos h]
  · rw [if_neg h, if_neg h]

/-- A check leaves behind what pruning leaves and what its decision admits. -/
lemma check_admitted (l : Limiter) (now : Instant) :
    (l.check now).2.admitted = (l.prune now).admitted ++ (l.check now).1.admitted now := by
  by_cases h : (l.prune now).admitted.length < l.policy.limit
  · rw [check_of_lt h]
    rfl
  · rw [check_of_not_lt h]
    exact (List.append_nil _).symm

/-- Only a limiter with a free slot allows. -/
lemma lt_limit_of_check (h : (l.check now).1 = .allowed) :
    (l.prune now).admitted.length < l.policy.limit := by
  by_contra hfull
  rw [check_of_not_lt hfull] at h
  cases h

/-! ### The queue as the end of the history -/

/-- The queue is what is left of the history; what is missing has left the window at `latest`. -/
def Accounts (l : Limiter) (history : List Instant) (latest : Instant) : Prop :=
  ∃ gone, history = gone ++ l.admitted ∧ ∀ a ∈ gone, expired l.policy.window latest a = true

/-- What it is to have expired, as an inequality. -/
lemma expired_iff {window now a : ℕ} : expired window now a = true ↔ window ≤ now - a := by
  simp [expired]

/-- What has expired stays so. -/
lemma expired_mono {window now later a : ℕ} (hle : now ≤ later)
    (h : expired window now a = true) : expired window later a = true := by
  rw [expired_iff] at h ⊢
  omega

/-- The queue of a fresh limiter accounts for a history without admissions. -/
lemma accounts_fresh (p : Policy) (latest : Instant) : (fresh p).Accounts [] latest :=
  ⟨[], rfl, by simp⟩

/-- A queue that accounts for a history does so at every later time. -/
lemma Accounts.mono {later : ℕ} (h : l.Accounts history latest) (hle : latest ≤ later) :
    l.Accounts history later := by
  obtain ⟨gone, rfl, hgone⟩ := h
  exact ⟨gone, rfl, fun a ha => expired_mono hle (hgone a ha)⟩

/-- Pruning at any reading drops only what has left the window at that reading. -/
lemma Accounts.prune (h : l.Accounts history latest) (now : Instant) :
    (l.prune now).Accounts history (max latest now) := by
  obtain ⟨gone, rfl, hgone⟩ := h
  refine ⟨gone ++ l.admitted.takeWhile (expired l.policy.window now), ?_, ?_⟩
  · rw [List.append_assoc]
    exact congrArg _ List.takeWhile_append_dropWhile.symm
  · intro a ha
    rcases List.mem_append.mp ha with ha | ha
    · exact expired_mono (le_max_left _ _) (hgone a ha)
    · exact expired_mono (le_max_right _ _) (List.mem_takeWhile_imp ha)

/-- A check records what it admits. -/
lemma Accounts.check (h : l.Accounts history latest) (now : Instant) :
    (l.check now).2.Accounts (history ++ (l.check now).1.admitted now) (max latest now) := by
  obtain ⟨gone, hhist, hgone⟩ := h.prune now
  refine ⟨gone, ?_, ?_⟩
  · rw [check_admitted, hhist, List.append_assoc]
  · rw [check_policy]
    exact hgone

/-- Where no reading was later than `now`, pruning at `now` needs no later reading. -/
lemma Accounts.prune_self (h : l.Accounts history now) : (l.prune now).Accounts history now := by
  have hprune := h.prune now
  rwa [max_self] at hprune

/-- Where no reading was later than `now`, neither is one after a check at `now`. -/
lemma Accounts.check_self (h : l.Accounts history now) :
    (l.check now).2.Accounts (history ++ (l.check now).1.admitted now) now := by
  have hcheck := h.check now
  rwa [max_self] at hcheck

/-! ### Windows -/

/-- In a window that holds a reading no older than all readings before it, pruning at that reading
leaves everything that the history has there. -/
lemma Accounts.countP_le (h : l.Accounts history latest) (hlatest : latest ≤ now) {t : ℕ}
    (hnow : Instant.inWindow t l.policy.window now = true) :
    history.countP (Instant.inWindow t l.policy.window) ≤ (l.prune now).admitted.length := by
  obtain ⟨gone, hhist, hgone⟩ := h.prune now
  rw [max_eq_right hlatest] at hgone
  have hnone : gone.countP (Instant.inWindow t l.policy.window) = 0 := by
    refine List.countP_eq_zero.mpr fun a ha hin => ?_
    have hold := hgone a ha
    rw [prune_policy, expired_iff] at hold
    rw [Instant.inWindow_iff] at hin hnow
    omega
  rw [hhist, List.countP_append, hnone, zero_add]
  exact List.countP_le_length

/-- A check at a reading no older than all readings before it keeps every window within the
limit. -/
lemma Accounts.respects_check (h : l.Accounts history latest) (hlatest : latest ≤ now)
    (hr : l.policy.Respects history) :
    l.policy.Respects (history ++ (l.check now).1.admitted now) := by
  intro t
  rw [List.countP_append]
  rcases hd : (l.check now).1 with _ | wait
  · by_cases hnow : Instant.inWindow t l.policy.window now = true
    · have hle := h.countP_le hlatest hnow
      have hlt := lt_limit_of_check hd
      simp only [Decision.admitted, List.countP_singleton, hnow, if_true]
      omega
    · simpa [Decision.admitted, hnow] using hr t
  · simpa [Decision.admitted] using hr t

/-- A history without admissions respects every policy. -/
lemma respects_nil (p : Policy) : p.Respects [] := fun _ => Nat.zero_le _

/-! ### Many checks in a row -/

/-- The decisions of a limiter on requests at these instants, and the limiter afterwards. -/
def checks (l : Limiter) : List Instant → List Decision × Limiter
  | [] => ([], l)
  | now :: rest =>
    let (decisions, last) := (l.check now).2.checks rest
    ((l.check now).1 :: decisions, last)

/-- A row of checks may be cut in two. -/
lemma checks_append (l : Limiter) (times times' : List Instant) :
    l.checks (times ++ times') =
      ((l.checks times).1 ++ ((l.checks times).2.checks times').1,
        ((l.checks times).2.checks times').2) := by
  induction times generalizing l with
  | nil => rfl
  | cons t rest ih =>
      rw [List.cons_append, checks, ih]
      rfl

end Limiter

end CodeReview

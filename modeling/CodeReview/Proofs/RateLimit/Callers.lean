import CodeReview.Proofs.RateLimit.History
import Mathlib.Logic.Function.Basic

/-!
# Callers that share a limiter

A caller asks for admission in two steps: it reads the clock, and when its turn at the queue comes
it prunes, compares and records with that reading.  Between the two steps others may have their
turns, so that readings come to the queue in any order although the clock never goes back.

* **What holds in every schedule.**  Of the readings that no later reading overtook, a window holds
  at most `limit` that were allowed.
* **What does not.**  A reading that was overtaken by a whole window finds the queue emptied of the
  instants next to it.  With a limit of two or more a window can therefore hold more allowed
  readings than the limit; with a limit of one it cannot, because every turn that empties the queue
  fills its only slot again.

`bounded_iff_limit_eq_one` states both, and `exceeds_limit_of_two` is the smallest schedule that
exceeds a limit.
-/

namespace CodeReview.Limiter

/-- A limiter and the callers that share it. -/
structure Shared where
  limiter : Limiter
  clock : Instant
  /-- The reading that a caller has taken and waits to use. -/
  reading : ℕ → Option Instant
  /-- Readings that were used and the decisions on them, in the order of the turns. -/
  decided : List (Instant × Decision)

namespace Shared

/-- What may happen next. -/
inductive Step where
  | elapse (d : Duration)
  /-- A caller without a reading takes one. -/
  | read (caller : ℕ)
  /-- A caller with a reading has its turn. -/
  | enter (caller : ℕ)
  deriving Repr, DecidableEq

/-- A fresh limiter that no caller has asked yet. -/
def idle (p : Policy) (start : Instant) : Shared := ⟨fresh p, start, fun _ => none, []⟩

/-- Take one step; a step that a caller cannot take changes nothing. -/
def step (s : Shared) : Step → Shared
  | .elapse d => { s with clock := s.clock + d }
  | .read c =>
    match s.reading c with
    | some _ => s
    | none => { s with reading := Function.update s.reading c (some s.clock) }
  | .enter c =>
    match s.reading c with
    | none => s
    | some r =>
      { s with
        limiter := (s.limiter.check r).2
        reading := Function.update s.reading c none
        decided := s.decided ++ [(r, (s.limiter.check r).1)] }

/-- Take the steps of a schedule. -/
def run (s : Shared) (steps : List Step) : Shared := steps.foldl step s

/-! ### Readings in the order of the turns -/

/-- The readings that were allowed. -/
def allowed (ds : List (Instant × Decision)) : List Instant := ds.flatMap fun a => a.2.admitted a.1

/-- The latest reading that was used. -/
def latest (ds : List (Instant × Decision)) : Instant := ds.foldl (fun t a => max t a.1) 0

/-- The readings that were allowed with no later reading among those used before, where `t` is the
latest of the ones before the list. -/
def inTurnAfter (t : Instant) : List (Instant × Decision) → List Instant
  | [] => []
  | a :: rest => (if t ≤ a.1 then a.2.admitted a.1 else []) ++ inTurnAfter (max t a.1) rest

/-- The readings that were allowed and that no later reading overtook. -/
def inTurn (ds : List (Instant × Decision)) : List Instant := inTurnAfter 0 ds

/-- A further turn adds its reading to those that were allowed, if it is allowed. -/
lemma allowed_concat (ds : List (Instant × Decision)) (r : Instant) (d : Decision) :
    allowed (ds ++ [(r, d)]) = allowed ds ++ d.admitted r := by
  simp [allowed]

/-- A further turn makes its reading the latest, unless a later one was used. -/
lemma latest_concat (ds : List (Instant × Decision)) (r : Instant) (d : Decision) :
    latest (ds ++ [(r, d)]) = max (latest ds) r := by
  simp [latest]

/-- A further turn adds its reading to those in turn, if it is allowed and not overtaken. -/
lemma inTurn_concat (ds : List (Instant × Decision)) (r : Instant) (d : Decision) :
    inTurn (ds ++ [(r, d)]) = inTurn ds ++ if latest ds ≤ r then d.admitted r else [] := by
  unfold inTurn latest
  generalize (0 : Instant) = t
  induction ds generalizing t with
  | nil => exact List.append_nil _
  | cons a rest ih =>
      rw [List.cons_append, inTurnAfter, ih, inTurnAfter, List.append_assoc]
      rfl

/-- Readings in turn are among those that were allowed. -/
lemma inTurn_sublist_allowed (ds : List (Instant × Decision)) :
    (inTurn ds).Sublist (allowed ds) := by
  unfold inTurn
  generalize (0 : Instant) = t
  induction ds generalizing t with
  | nil => exact List.Sublist.refl _
  | cons a rest ih =>
      rw [inTurnAfter]
      refine List.Sublist.append ?_ (ih (max t a.1))
      split_ifs
      · exact List.Sublist.refl _
      · exact List.nil_sublist _

/-! ### What a step preserves -/

/-- A property of limiter and decisions that every turn preserves holds after every schedule. -/
lemma run_induction {P : Limiter → List (Instant × Decision) → Prop}
    (hturn : ∀ l ds r, P l ds → P (l.check r).2 (ds ++ [(r, (l.check r).1)]))
    (steps : List Step) (s : Shared) (h : P s.limiter s.decided) :
    P (s.run steps).limiter (s.run steps).decided := by
  induction steps generalizing s with
  | nil => exact h
  | cons m rest ih =>
      refine ih (s.step m) ?_
      cases m with
      | elapse d => exact h
      | read c =>
          unfold step
          cases hc : s.reading c with
          | none => simpa only [hc] using h
          | some r => simpa only [hc] using h
      | enter c =>
          unfold step
          cases hc : s.reading c with
          | none => simpa only [hc] using h
          | some r => simpa only [hc] using hturn _ _ r h

/-- The queue accounts for all allowed readings, and the ones in turn respect the policy. -/
structure Sound (p : Policy) (l : Limiter) (ds : List (Instant × Decision)) : Prop where
  policy : l.policy = p
  accounts : l.Accounts (allowed ds) (latest ds)
  respects : p.Respects (inTurn ds)

variable {p : Policy}

/-- A limiter that nobody has asked is sound. -/
lemma sound_idle (p : Policy) : Sound p (fresh p) [] :=
  ⟨rfl, accounts_fresh p _, respects_nil p⟩

/-- A reading in turn sees in the queue every allowed reading of its windows. -/
lemma Sound.check {l : Limiter} {ds : List (Instant × Decision)} (h : Sound p l ds) (r : ℕ) :
    Sound p (l.check r).2 (ds ++ [(r, (l.check r).1)]) := by
  refine ⟨by rw [check_policy, h.policy], ?_, fun t => ?_⟩
  · rw [allowed_concat, latest_concat]
    exact h.accounts.check r
  · rw [inTurn_concat, List.countP_append]
    by_cases hturn : latest ds ≤ r ∧ (l.check r).1 = .allowed ∧ t.inWindow p.window r = true
    · obtain ⟨hlatest, hallowed, hin⟩ := hturn
      have hlt := lt_limit_of_check hallowed
      have hqueue := h.accounts.countP_le hlatest (h.policy ▸ hin)
      have hsub : (inTurn ds).countP (t.inWindow p.window) ≤
          (allowed ds).countP (t.inWindow p.window) := (inTurn_sublist_allowed ds).countP_le
      rw [h.policy] at hlt hqueue
      rw [if_pos hlatest, hallowed, Decision.admitted, List.countP_singleton, if_pos hin]
      omega
    · have hnone : (if latest ds ≤ r then (l.check r).1.admitted r else []).countP
          (t.inWindow p.window) = 0 := by
        split_ifs with hlatest
        · cases hd : (l.check r).1 with
          | denied wait => rfl
          | allowed =>
              rw [Decision.admitted, List.countP_singleton, if_neg]
              exact fun hin => hturn ⟨hlatest, hd, hin⟩
        · rfl
      rw [hnone]
      exact h.respects t

/-! ### A limit of one -/

/-- Instants of which each is at least a whole window after all before it. -/
def Spaced (window : ℕ) (as : List ℕ) : Prop := as.Pairwise fun a b => a + window ≤ b

/-- A window holds at most one of spaced instants. -/
lemma Spaced.countP_le_one {window : ℕ} {as : List ℕ} (h : Spaced window as) (t : ℕ) :
    as.countP (Instant.inWindow t window) ≤ 1 := by
  rw [List.countP_eq_length_filter]
  have hf := List.Pairwise.sublist (List.filter_sublist (p := Instant.inWindow t window)) h
  have hin : ∀ a ∈ as.filter (Instant.inWindow t window), Instant.inWindow t window a = true :=
    fun a ha => (List.mem_filter.mp ha).2
  match hfs : as.filter (Instant.inWindow t window) with
  | [] => exact Nat.zero_le _
  | [_] => exact le_rfl
  | a :: b :: rest =>
      exfalso
      rw [hfs] at hf hin
      have hab := (List.pairwise_cons.mp hf).1 b List.mem_cons_self
      have ha := Instant.inWindow_iff.mp (hin a List.mem_cons_self)
      have hb := Instant.inWindow_iff.mp (hin b (List.mem_cons_of_mem _ List.mem_cons_self))
      omega

/-- An instant that has expired is a whole window back, and so are those before it. -/
lemma add_window_le_of_expired {window now a b : ℕ} (hpos : 0 < window) (hab : a ≤ b)
    (h : expired window now b = true) : a + window ≤ now := by
  rw [expired_iff] at h
  omega

/-- With one slot, the queue holds the last allowed reading and the allowed readings are spaced. -/
structure Single (p : Policy) (l : Limiter) (ds : List (Instant × Decision)) : Prop where
  policy : l.policy = p
  queue : l.admitted = (allowed ds).getLast?.toList
  spaced : Spaced p.window (allowed ds)

/-- A limiter that nobody has asked holds no reading. -/
lemma single_idle (p : Policy) : Single p (fresh p) [] :=
  ⟨rfl, rfl, List.Pairwise.nil⟩

variable {l : Limiter} {ds : List (Instant × Decision)} {r : ℕ}

/-- Where pruning empties the queue, every allowed reading is a whole window old. -/
lemma Single.add_window_le (h : Single p l ds) (hwindow : 0 < p.window)
    (hprune : (l.prune r).admitted = []) : ∀ a ∈ allowed ds, a + p.window ≤ r := by
  intro a ha
  rcases List.eq_nil_or_concat (allowed ds) with hnil | ⟨before, q, hlast⟩
  · rw [hnil] at ha
    cases ha
  · rw [List.concat_eq_append] at hlast
    have hq := h.queue
    rw [hlast, List.getLast?_concat, Option.toList_some] at hq
    have hexp : expired p.window r q = true := by
      rw [prune, hq, List.dropWhile_eq_nil_iff, h.policy] at hprune
      exact hprune q (List.mem_singleton_self q)
    have hs := h.spaced
    rw [hlast] at hs ha
    refine add_window_le_of_expired hwindow ?_ hexp
    rcases List.mem_append.mp ha with ha | ha
    · exact (Nat.le_add_right a _).trans
        ((List.pairwise_append.mp hs).2.2 a ha q (List.mem_singleton_self q))
    · exact (List.mem_singleton.mp ha).le

/-- Where pruning leaves anything, it leaves the queue as it was, with one reading in it. -/
lemma Single.prune_eq (h : Single p l ds) (hprune : (l.prune r).admitted ≠ []) :
    l.prune r = l ∧ l.admitted.length = 1 := by
  have hq := h.queue
  cases hlast : (allowed ds).getLast? with
  | none =>
      rw [hlast, Option.toList_none] at hq
      rw [prune, hq] at hprune
      exact absurd rfl hprune
  | some q =>
      rw [hlast, Option.toList_some] at hq
      have hexp : ¬ expired l.policy.window r q = true := by
        intro hexp
        rw [prune, hq, List.dropWhile_cons_of_pos hexp] at hprune
        exact hprune rfl
      refine ⟨?_, by rw [hq]; rfl⟩
      unfold prune
      rw [hq, List.dropWhile_cons_of_neg hexp, ← hq]

/-- With one slot, a turn is allowed only where all allowed readings are a whole window old. -/
lemma Single.check (h : Single p l ds) (hlimit : p.limit = 1) (hwindow : 0 < p.window) (r : ℕ) :
    Single p (l.check r).2 (ds ++ [(r, (l.check r).1)]) := by
  by_cases hprune : (l.prune r).admitted = []
  · have hcheck : l.check r = _ := check_of_lt (by rw [hprune, h.policy, hlimit]; decide)
    rw [hcheck, hprune]
    refine ⟨h.policy, ?_, ?_⟩
    · rw [allowed_concat]
      simp [Decision.admitted]
    · rw [allowed_concat]
      refine List.pairwise_append.mpr ⟨h.spaced, List.pairwise_singleton _ _, fun a ha b hb => ?_⟩
      rw [List.mem_singleton.mp hb]
      exact h.add_window_le hwindow hprune a ha
  · obtain ⟨hsame, hlength⟩ := h.prune_eq hprune
    have hcheck : l.check r = _ :=
      check_of_not_lt (by rw [hsame, hlength, h.policy, hlimit]; exact lt_irrefl 1)
    rw [hcheck, hsame]
    refine ⟨h.policy, ?_, ?_⟩
    · rw [allowed_concat]
      simpa [Decision.admitted] using h.queue
    · rw [allowed_concat]
      simpa [Decision.admitted] using h.spaced

/-! ### A limit of two or more -/

/-- A caller asks at once, `n` times, without time passing. -/
def askRepeatedly : ℕ → List Step
  | 0 => []
  | n + 1 => [.read 0, .enter 0] ++ askRepeatedly n

/-- Fill the slots, take a reading just before the window ends, and use it just after another caller
was admitted at the end of the window. -/
def overtake (p : Policy) : List Step :=
  askRepeatedly p.limit ++
    [.elapse (p.window - 1), .read 1, .elapse 1, .read 0, .enter 0, .enter 1]

/-- A limiter whose `k` instants are all at the start. -/
def filled (p : Policy) (k : ℕ) : Shared :=
  ⟨⟨p, List.replicate k 0⟩, 0, fun _ => none, List.replicate k (0, .allowed)⟩

/-- A queue whose instants all still count is left as it is. -/
lemma prune_of_not_expired {l : Limiter} {now : ℕ}
    (h : ∀ a ∈ l.admitted, ¬ expired l.policy.window now a = true) : l.prune now = l := by
  have hsame : l.admitted.dropWhile (expired l.policy.window now) = l.admitted := by
    cases hl : l.admitted with
    | nil => rfl
    | cons a rest =>
        rw [hl] at h
        exact List.dropWhile_cons_of_neg (h a List.mem_cons_self)
  rw [prune, hsame]

/-- A caller without a reading that asks at once leaves its decision and no reading. -/
lemma run_read_enter {s : Shared} {c : ℕ} (hfree : s.reading c = none) :
    s.run [.read c, .enter c] =
      { s with
        limiter := (s.limiter.check s.clock).2
        decided := s.decided ++ [(s.clock, (s.limiter.check s.clock).1)] } := by
  have hback : Function.update (Function.update s.reading c (some s.clock)) c none = s.reading := by
    rw [Function.update_idem, ← hfree, Function.update_eq_self]
  simp only [run, List.foldl_cons, List.foldl_nil, step, hfree, Function.update_self, hback]

/-- A schedule may be cut in two. -/
lemma run_append (s : Shared) (before after : List Step) :
    s.run (before ++ after) = (s.run before).run after := List.foldl_append

/-- As long as there is a slot, a check at the start is allowed and recorded. -/
lemma replicate_zero_check (hwindow : 0 < p.window) {k : ℕ} (h : k < p.limit) :
    (Limiter.mk p (List.replicate k 0)).check 0 =
      (.allowed, ⟨p, List.replicate (k + 1) 0⟩) := by
  have hprune : (Limiter.mk p (List.replicate k 0)).prune 0 = ⟨p, List.replicate k 0⟩ := by
    refine prune_of_not_expired fun a ha => ?_
    rw [expired_iff, Nat.zero_sub]
    exact Nat.not_le.mpr hwindow
  have hcheck : (Limiter.mk p (List.replicate k 0)).check 0 = _ :=
    check_of_lt (by rwa [hprune, List.length_replicate])
  rw [hcheck, hprune, List.replicate_succ']

/-- Asking at the start fills one slot after the other. -/
lemma run_askRepeatedly (hwindow : 0 < p.window) (n k : ℕ) (h : k + n ≤ p.limit) :
    (filled p k).run (askRepeatedly n) = filled p (k + n) := by
  induction n generalizing k with
  | zero => rfl
  | succ n ih =>
      have hstep : (filled p k).run [.read 0, .enter 0] = filled p (k + 1) := by
        have hcheck := replicate_zero_check (p := p) hwindow (show k < p.limit by omega)
        rw [run_read_enter rfl]
        simp only [filled, hcheck, List.replicate_succ']
      rw [askRepeatedly, run_append, hstep, ih (k + 1) (by omega), Nat.add_right_comm k 1 n,
        Nat.add_assoc k n 1]

/-- A whole window after the slots were filled, pruning leaves nothing. -/
lemma replicate_zero_check_window (hlimit : 0 < p.limit) :
    (Limiter.mk p (List.replicate p.limit 0)).check p.window = (.allowed, ⟨p, [p.window]⟩) := by
  have hprune : (Limiter.mk p (List.replicate p.limit 0)).prune p.window = ⟨p, []⟩ := by
    have hnone : (List.replicate p.limit 0).dropWhile (expired p.window p.window) = [] := by
      refine List.dropWhile_eq_nil_iff.mpr fun a ha => ?_
      rw [List.eq_of_mem_replicate ha]
      exact expired_iff.mpr le_rfl
    exact congrArg (Limiter.mk p) hnone
  have hcheck : (Limiter.mk p (List.replicate p.limit 0)).check p.window = _ :=
    check_of_lt (by rwa [hprune])
  rw [hcheck, hprune]
  rfl

/-- A reading just before the only recorded instant finds that instant and a free slot. -/
lemma singleton_check_pred (hwindow : 0 < p.window) (hlimit : 2 ≤ p.limit) :
    (Limiter.mk p [p.window]).check (p.window - 1) = (.allowed, ⟨p, [p.window, p.window - 1]⟩) := by
  have hprune : (Limiter.mk p [p.window]).prune (p.window - 1) = ⟨p, [p.window]⟩ := by
    refine prune_of_not_expired fun a ha => ?_
    rw [List.mem_singleton.mp ha, expired_iff]
    change ¬ p.window ≤ p.window - 1 - p.window
    have h : ∀ w : ℕ, 0 < w → ¬ w ≤ w - 1 - w := by omega
    exact h p.window hwindow
  have hcheck : (Limiter.mk p [p.window]).check (p.window - 1) = _ :=
    check_of_lt (by rw [hprune]; exact hlimit)
  rw [hcheck, hprune]
  rfl

/-- The reading that was overtaken is allowed as well. -/
lemma decided_overtake (hwindow : 0 < p.window) (hlimit : 2 ≤ p.limit) :
    ((idle p 0).run (overtake p)).decided =
      List.replicate p.limit (0, .allowed) ++ [(p.window, .allowed), (p.window - 1, .allowed)] := by
  have hfull : (idle p 0).run (askRepeatedly p.limit) = filled p p.limit := by
    have h := run_askRepeatedly hwindow p.limit 0 (Nat.zero_add _).le
    rwa [Nat.zero_add] at h
  rw [overtake, run_append, hfull]
  have hclock : p.window - 1 + 1 = p.window := Nat.sub_add_cancel hwindow
  have hone : 0 < p.limit := Nat.lt_of_lt_of_le Nat.two_pos hlimit
  simp [run, step, filled, hclock, replicate_zero_check_window hone,
    singleton_check_pred hwindow hlimit]

/-- The window from the start on holds the readings that filled the slots and the one that was
overtaken. -/
lemma countP_allowed_overtake (hwindow : 0 < p.window) (hlimit : 2 ≤ p.limit) :
    (allowed ((idle p 0).run (overtake p)).decided).countP (Instant.inWindow 0 p.window) =
      p.limit + 1 := by
  have hallowed : allowed ((idle p 0).run (overtake p)).decided =
      List.replicate p.limit 0 ++ [p.window, p.window - 1] := by
    rw [decided_overtake hwindow hlimit]
    simp [allowed, Decision.admitted, List.flatMap_replicate]
  have hstart : Instant.inWindow 0 p.window 0 = true := by
    rw [Instant.inWindow_iff, Nat.zero_add]
    exact ⟨le_rfl, hwindow⟩
  have hend : ¬ Instant.inWindow 0 p.window p.window = true := by
    rw [Instant.inWindow_iff, Nat.zero_add]
    exact fun h => lt_irrefl _ h.2
  have hpred : Instant.inWindow 0 p.window (p.window - 1) = true := by
    rw [Instant.inWindow_iff, Nat.zero_add]
    exact ⟨Nat.zero_le _, Nat.sub_lt hwindow Nat.one_pos⟩
  rw [hallowed, List.countP_append, List.countP_replicate, if_pos hstart,
    List.countP_cons_of_neg hend, List.countP_singleton, if_pos hpred]

/-! ### The bound -/

/-- **The limit holds in every schedule exactly where it is one**; of the readings that no later
reading overtook, a window never holds more than the limit. -/
theorem bounded_iff_limit_eq_one (p : Policy) (hlimit : 1 ≤ p.limit) (hframe : 1 ≤ p.timeFrame) :
    ((∀ start steps t, (allowed ((idle p start).run steps).decided).countP
        (Instant.inWindow t p.window) ≤ p.limit) ↔ p.limit = 1) ∧
      ∀ start steps t, (inTurn ((idle p start).run steps).decided).countP
        (Instant.inWindow t p.window) ≤ p.limit := by
  have hwindow : 0 < p.window := Nat.mul_pos hframe (by decide)
  refine ⟨⟨fun h => ?_, fun hone start steps t => ?_⟩, fun start steps t => ?_⟩
  · -- with a second slot, an overtaken reading is one too many
    by_contra hne
    have hover := h 0 (overtake p) 0
    rw [countP_allowed_overtake hwindow (by omega)] at hover
    omega
  · have hsingle : Single p ((idle p start).run steps).limiter ((idle p start).run steps).decided :=
      run_induction (fun l ds r h => h.check hone hwindow r) steps (idle p start) (single_idle p)
    rw [hone]
    exact hsingle.spaced.countP_le_one t
  · have hsound : Sound p ((idle p start).run steps).limiter ((idle p start).run steps).decided :=
      run_induction (fun l ds r h => h.check r) steps (idle p start) (sound_idle p)
    exact hsound.respects t

/-- With two slots in ten seconds the limit does not hold in every schedule. -/
theorem not_bounded_of_two :
    (1 ≤ 2 ∧ 1 ≤ 10) ∧ ¬ ∀ start steps t,
      (allowed ((idle ⟨2, 10⟩ start).run steps).decided).countP
        (Instant.inWindow t (Policy.mk 2 10).window) ≤ 2 := by
  refine ⟨by decide, fun h => ?_⟩
  have hone := (bounded_iff_limit_eq_one ⟨2, 10⟩ (by decide) (by decide)).1.mp h
  exact absurd hone (by decide)

/-- Two callers fill both slots at the start; a third reads the clock after five seconds, a fourth
reads it after ten and has its turn first.  The window from the start on then holds three allowed
readings. -/
theorem exceeds_limit_of_two :
    let s := (idle ⟨2, 10⟩ 0).run
      [.read 0, .enter 0, .read 1, .enter 1,
        .elapse (.ofSeconds 5), .read 2, .elapse (.ofSeconds 5), .read 3, .enter 3, .enter 2]
    allowed s.decided = [0, 0, Duration.ofSeconds 10, Duration.ofSeconds 5] ∧
      ¬ (allowed s.decided).countP (Instant.inWindow 0 (Policy.mk 2 10).window) ≤ 2 := by
  decide +kernel

end Shared

end CodeReview.Limiter

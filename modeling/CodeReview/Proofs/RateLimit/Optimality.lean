import CodeReview.Proofs.RateLimit.Ledger

/-!
# The limiter admits as much as any rule could

A limiter admits each request that it can.  Another rule could turn a request away to keep a slot
for later ones; `selected_le_allowed` says that this never pays.  Of the requests up to any point,
the limiter has admitted at least as many as anyone could select without overfilling a window.  A
larger limit is a special case: what the smaller one admits is a selection that the larger one
allows, so that raising the limit never lowers the number of requests admitted by any time.

The two histories need not have an instant in common.  The argument compares them by counting only:
`Leads` says that before every instant at least as many requests were admitted as were selected.

* **An admission** adds to both histories at most the same instant.
* **A denial** of a request that is selected (`Mirrors.leads_of_denied`) happens with `limit`
  instants in the window that ends at the request.  The selection can have only `limit - 1` there,
  and of the instants before that window the limiter has at least as many; so it was ahead.
-/

namespace CodeReview

namespace Limiter

/-- The instants of the requests that a limiter allows, out of requests at these instants. -/
def admits (l : Limiter) (times : List Instant) : List Instant :=
  (times.zip (l.checks times).1).flatMap fun a => a.2.admitted a.1

/-- The instants of the requests that are selected. -/
def selected (calls : List (Instant × Bool)) : List Instant :=
  (calls.filter Prod.snd).map Prod.fst

/-- Before every instant the first history has at least as many entries as the second. -/
def Leads (admitted chosen : List ℕ) : Prop :=
  ∀ t : ℕ, chosen.countP (· < t) ≤ admitted.countP (· < t)

variable {p : Policy} {l : Limiter} {now : ℕ} {admitted chosen : List ℕ}

/-! ### The histories along a run -/

/-- Where nothing is asked, nothing is admitted. -/
@[simp] lemma admits_nil (l : Limiter) : l.admits [] = [] := rfl

/-- Admissions are gathered check by check. -/
@[simp] lemma admits_cons (l : Limiter) (now : Instant) (rest : List Instant) :
    l.admits (now :: rest) = (l.check now).1.admitted now ++ (l.check now).2.admits rest := rfl

/-- Of no calls none are selected. -/
@[simp] lemma selected_nil : selected [] = [] := rfl

/-- Selections are gathered call by call. -/
@[simp] lemma selected_cons (now : Instant) (chosen : Bool) (rest : List (Instant × Bool)) :
    selected ((now, chosen) :: rest) = (if chosen then [now] else []) ++ selected rest := by
  cases chosen <;> rfl

/-- Every check is decided. -/
lemma length_checks (l : Limiter) (times : List Instant) :
    (l.checks times).1.length = times.length := by
  induction times generalizing l with
  | nil => rfl
  | cons now rest ih => exact congrArg (· + 1) (ih _)

/-- The decisions on the first requests do not depend on the later ones. -/
lemma checks_take (l : Limiter) (times : List Instant) (n : ℕ) :
    (l.checks (times.take n)).1 = (l.checks times).1.take n := by
  have hsplit := congrArg Prod.fst (checks_append l (times.take n) (times.drop n))
  rw [List.take_append_drop] at hsplit
  dsimp only at hsplit
  rw [hsplit, List.take_append, length_checks]
  rcases Nat.le_total n times.length with hn | hn
  · simp [List.take_of_length_le, length_checks, hn]
  · simp [List.take_of_length_le, length_checks, hn, checks, List.drop_of_length_le]

/-- As many requests are admitted as checks are allowed. -/
lemma length_admits (l : Limiter) (times : List Instant) :
    (l.admits times).length = (l.checks times).1.count .allowed := by
  induction times generalizing l with
  | nil => rfl
  | cons now rest ih =>
      rw [admits_cons, List.length_append, ih, checks, List.count_cons, Nat.add_comm]
      cases (l.check now).1 <;> rfl

/-- What a limiter allows is a selection of the requests. -/
lemma selected_zip_allowed (l : Limiter) (times : List Instant) :
    selected (times.zip ((l.checks times).1.map fun d => decide (d = .allowed))) =
      l.admits times := by
  induction times generalizing l with
  | nil => rfl
  | cons now rest ih =>
      rw [checks, List.map_cons, List.zip_cons_cons, selected_cons, admits_cons, ih]
      cases (l.check now).1 <;> rfl

/-- What is selected of the first calls is among what is selected of all. -/
lemma selected_take_sublist (calls : List (Instant × Bool)) (n : ℕ) :
    (selected (calls.take n)).Sublist (selected calls) :=
  ((List.take_sublist n calls).filter _).map _

/-! ### Counting before and in the last window -/

/-- Of two histories without entries neither is behind. -/
lemma leads_nil : Leads [] [] := fun _ => le_rfl

/-- Histories of which one leads may be continued by such histories. -/
lemma Leads.append (h : Leads admitted chosen) {more more' : List ℕ} (h' : Leads more more') :
    Leads (admitted ++ more) (chosen ++ more') := by
  intro t
  rw [List.countP_append, List.countP_append]
  exact Nat.add_le_add (h t) (h' t)

/-- A history counts as many entries before any later instant as it has. -/
lemma countP_lt_eq_length (hpast : ∀ a ∈ admitted, a ≤ now) {t : ℕ} (ht : now < t) :
    admitted.countP (· < t) = admitted.length := by
  rw [List.countP_eq_length]
  intro a ha
  have hle := hpast a ha
  rw [decide_eq_true_eq]
  omega

/-- A history that leads has at least as many entries. -/
lemma Leads.length_le (h : Leads admitted chosen) : chosen.length ≤ admitted.length :=
  calc chosen.length
      = chosen.countP (· < chosen.sum + 1) :=
        (countP_lt_eq_length (fun _ => List.le_sum_of_mem) chosen.sum.lt_succ_self).symm
    _ ≤ admitted.countP (· < chosen.sum + 1) := h _
    _ ≤ admitted.length := List.countP_le_length

/-- A history up to `now` is what lies before the window that ends at `now` and what lies in it. -/
lemma countP_add_countP_inWindow {window start : ℕ} (hstart : start = now + 1 - window)
    (hpast : ∀ a ∈ admitted, a ≤ now) :
    admitted.countP (· < start) + admitted.countP (Instant.inWindow start window) =
      admitted.length := by
  rw [List.length_eq_countP_add_countP (· < start)]
  congr 1
  refine List.countP_congr fun a ha => ?_
  have hle := hpast a ha
  rw [Instant.inWindow_iff]
  simp only [decide_eq_true_eq]
  omega

/-- The live instants are those in the window that ends at the request. -/
lemma countP_inWindow_eq_live {k : Ledger} {window start : ℕ} (hwindow : k.policy.window = window)
    (hstart : start = now + 1 - window) (hpast : ∀ a ∈ k.admitted, a ≤ now) :
    k.admitted.countP (Instant.inWindow start window) = (k.live now).length := by
  have hiff : ∀ a : ℕ, a ≤ now → (start ≤ a ∧ a < start + window ↔ now - a < window) := by
    omega
  rw [Ledger.live, hwindow, ← List.countP_eq_length_filter]
  refine List.countP_congr fun a ha => ?_
  rw [Instant.inWindow_iff, decide_eq_true_eq]
  exact hiff a (hpast a ha)

/-! ### One request -/

/-- Where a request is denied, the limiter is ahead of every selection that includes it. -/
lemma Mirrors.leads_of_denied (h : l.Mirrors ⟨p, admitted⟩ now) (hlimit : 1 ≤ p.limit)
    (hfull : p.limit ≤ (Ledger.live ⟨p, admitted⟩ now).length) (hlead : Leads admitted chosen)
    (hpast : ∀ a ∈ chosen, a ≤ now) (hresp : p.Respects (chosen ++ [now])) :
    Leads admitted (chosen ++ [now]) := by
  obtain ⟨window, hwindow⟩ : ∃ window : ℕ, p.window = window := ⟨_, rfl⟩
  have hpos : 0 < window := by
    obtain ⟨a, ha⟩ := List.exists_mem_of_length_pos (hlimit.trans hfull)
    have hlive := (List.mem_filter.mp ha).2
    rw [decide_eq_true_eq, hwindow] at hlive
    exact Nat.zero_lt_of_lt hlive
  -- the selection has at most `limit` instants in the window that ends at the request, which is one
  obtain ⟨start, hstart⟩ : ∃ start : ℕ, start = now + 1 - window := ⟨_, rfl⟩
  have hin : Instant.inWindow start window now = true := by
    rw [Instant.inWindow_iff]
    omega
  have hchosen := hresp start
  rw [hwindow, List.countP_append, List.countP_singleton, if_pos hin] at hchosen
  have hlive := countP_inWindow_eq_live (k := ⟨p, admitted⟩) hwindow hstart h.past
  have hsplit := countP_add_countP_inWindow hstart h.past
  have hsplit' := countP_add_countP_inWindow hstart hpast
  have hbefore := hlead start
  have hahead : chosen.length + 1 ≤ admitted.length := by
    dsimp only at hlive hsplit
    omega
  intro t
  rw [List.countP_append, List.countP_singleton]
  by_cases ht : now < t
  · rw [countP_lt_eq_length h.past ht, countP_lt_eq_length hpast ht, if_pos (by simpa using ht)]
    exact hahead
  · rw [if_neg (by simpa using ht)]
    exact hlead t

/-- **The limiter stays in the lead.** At each request, selected or not. -/
lemma Mirrors.leads_check (h : l.Mirrors ⟨p, admitted⟩ now) (hlimit : 1 ≤ p.limit)
    (hlead : Leads admitted chosen) (hpast : ∀ a ∈ chosen, a ≤ now) {choice : List ℕ}
    (hchoice : choice = [] ∨ choice = [now]) (hresp : p.Respects (chosen ++ choice)) :
    Leads (admitted ++ (l.check now).1.admitted now) (chosen ++ choice) := by
  rw [h.check.1, Ledger.check]
  split_ifs with hlt
  · refine hlead.append fun t => ?_
    rcases hchoice with rfl | rfl
    · exact Nat.zero_le _
    · exact le_rfl
  · rw [Decision.admitted, List.append_nil]
    rcases hchoice with rfl | rfl
    · rwa [List.append_nil]
    · exact h.leads_of_denied hlimit (Nat.le_of_not_lt hlt) hlead hpast hresp

/-- The history that a limiter mirrors after a request. -/
lemma Mirrors.check_admitted (h : l.Mirrors ⟨p, admitted⟩ now) :
    (l.check now).2.Mirrors ⟨p, admitted ++ (l.check now).1.admitted now⟩ now := by
  have hnext := h.check.2
  rw [h.check.1]
  rw [Ledger.check] at hnext ⊢
  split_ifs at hnext ⊢
  · exact hnext
  · rwa [Decision.admitted, List.append_nil]

/-! ### A whole run -/

/-- From a history that leads the selection so far, the limiter leads every selection of the
requests to come. -/
lemma Mirrors.leads_admits (h : l.Mirrors ⟨p, admitted⟩ now) (hlimit : 1 ≤ p.limit)
    (hlead : Leads admitted chosen) (hpast : ∀ a ∈ chosen, a ≤ now)
    (calls : List (Instant × Bool)) (hsorted : (now :: calls.map Prod.fst).Pairwise (· ≤ ·))
    (hresp : p.Respects (chosen ++ selected calls)) :
    Leads (admitted ++ l.admits (calls.map Prod.fst)) (chosen ++ selected calls) := by
  induction calls generalizing l now admitted chosen with
  | nil => simpa using hlead
  | cons call rest ih =>
      obtain ⟨later, choice⟩ := call
      obtain ⟨hfirst, hrest⟩ := List.pairwise_cons.mp hsorted
      have hle : now ≤ later := hfirst later List.mem_cons_self
      have hmirrors : l.Mirrors ⟨p, admitted⟩ later := by
        have hlater := h.later (later - now)
        rwa [Nat.add_sub_cancel' hle] at hlater
      have hpast' : ∀ a ∈ chosen, a ≤ later := fun a ha => (hpast a ha).trans hle
      rw [selected_cons, ← List.append_assoc] at hresp ⊢
      rw [List.map_cons, admits_cons, ← List.append_assoc]
      have hchoice : (if choice = true then [later] else []) = [] ∨
          (if choice = true then [later] else []) = [later] := by
        cases choice
        · exact .inl rfl
        · exact .inr rfl
      refine ih hmirrors.check_admitted ?_ ?_ hrest hresp
      · exact hmirrors.leads_check hlimit hlead hpast' hchoice
          (hresp.sublist (List.sublist_append_left _ _))
      · intro a ha
        rcases List.mem_append.mp ha with ha | ha
        · exact hpast' a ha
        · rcases hchoice with hnone | hone
          · rw [hnone] at ha
            cases ha
          · rw [hone] at ha
            exact (List.mem_singleton.mp ha).le

/-- What a limiter admits never overfills a window. -/
lemma Mirrors.respects_admits (h : l.Mirrors ⟨p, admitted⟩ now) (hresp : p.Respects admitted)
    {times : List ℕ} (hsorted : (now :: times).Pairwise (· ≤ ·)) :
    p.Respects (admitted ++ l.admits times) := by
  induction times generalizing l now admitted with
  | nil => simpa using hresp
  | cons later rest ih =>
      obtain ⟨hfirst, hrest⟩ := List.pairwise_cons.mp hsorted
      have hmirrors : l.Mirrors ⟨p, admitted⟩ later := by
        have hlater := h.later (later - now)
        rwa [Nat.add_sub_cancel' (hfirst later List.mem_cons_self)] at hlater
      have hstep := hmirrors.accounts.respects_check le_rfl (hmirrors.policy ▸ hresp)
      rw [hmirrors.policy] at hstep
      rw [admits_cons, ← List.append_assoc]
      exact ih hmirrors.check_admitted hstep hrest

/-- A fresh limiter leads every selection that respects its policy. -/
lemma leads_admits_fresh (hlimit : 1 ≤ p.limit) {calls : List (Instant × Bool)}
    (hsorted : (calls.map Prod.fst).Pairwise (· ≤ ·)) (hresp : p.Respects (selected calls)) :
    Leads ((fresh p).admits (calls.map Prod.fst)) (selected calls) :=
  (mirrors_fresh p 0).leads_admits hlimit leads_nil (by simp) calls
    (List.pairwise_cons.mpr ⟨fun _ _ => Nat.zero_le _, hsorted⟩) hresp

/-- What a fresh limiter admits respects its policy. -/
lemma respects_admits_fresh (p : Policy) {times : List ℕ} (hsorted : times.Pairwise (· ≤ ·)) :
    p.Respects ((fresh p).admits times) :=
  (mirrors_fresh p 0).respects_admits (respects_nil p)
    (List.pairwise_cons.mpr ⟨fun _ _ => Nat.zero_le _, hsorted⟩)

/-- With a larger limit, the limiter leads itself. -/
lemma leads_admits_of_limit_le (hlimit : 1 ≤ p.limit) {limit : ℕ} (hle : p.limit ≤ limit)
    {times : List ℕ} (hsorted : times.Pairwise (· ≤ ·)) :
    Leads ((fresh { p with limit }).admits times) ((fresh p).admits times) := by
  have hlength : times.length ≤
      (((fresh p).checks times).1.map fun d => decide (d = .allowed)).length := by
    rw [List.length_map, length_checks]
  have hfst := List.map_fst_zip hlength
  have hresp : Policy.Respects { p with limit } ((fresh p).admits times) :=
    fun t => (respects_admits_fresh p hsorted t).trans hle
  rw [← selected_zip_allowed] at hresp
  have hlead := leads_admits_fresh (hlimit.trans hle) (by rwa [hfst]) hresp
  rwa [hfst, selected_zip_allowed] at hlead

/-- **No rule admits more.** Of requests at times that do not go back, take any selection that
overfills no window of the policy: up to every point of the sequence the limiter has allowed at
least as many requests as are selected.  So raising the limit never lowers the number of requests
that are admitted by any time. -/
theorem selected_le_allowed (p : Policy) (calls : List (Instant × Bool)) (hlimit : 1 ≤ p.limit)
    (hsorted : (calls.map Prod.fst).Pairwise (· ≤ ·)) :
    (p.Respects (selected calls) → ∀ n, (selected (calls.take n)).length ≤
      (((fresh p).checks (calls.map Prod.fst)).1.take n).count .allowed) ∧
    ∀ limit, p.limit ≤ limit → ∀ t : ℕ,
      ((fresh p).admits (calls.map Prod.fst)).countP (· ≤ t) ≤
        ((fresh { p with limit }).admits (calls.map Prod.fst)).countP (· ≤ t) := by
  refine ⟨fun hresp n => ?_, fun limit hle t => ?_⟩
  · have hsub : ((calls.take n).map Prod.fst).Sublist (calls.map Prod.fst) :=
      (List.take_sublist n calls).map _
    have hlead := leads_admits_fresh hlimit (hsorted.sublist hsub)
      (hresp.sublist (selected_take_sublist calls n))
    rw [← checks_take, ← List.map_take, ← length_admits]
    exact hlead.length_le
  · have hlead := leads_admits_of_limit_le hlimit hle hsorted (t + 1)
    simpa only [Nat.lt_succ_iff] using hlead

/-- With one slot in ten seconds: who turns down the request at the start and takes those after
five and fifteen seconds gets two, and so does the limiter, after ten seconds already. -/
theorem selected_le_allowed_of_two :
    let calls := [(0, false), (5000000000, true), (10000000000, false), (15000000000, true)]
    (Policy.mk 1 10).Respects (selected calls) ∧
      (fresh ⟨1, 10⟩).admits (calls.map Prod.fst) = [0, 10000000000] ∧
      (selected (calls.take 4)).length ≤
        (((fresh ⟨1, 10⟩).checks (calls.map Prod.fst)).1.take 4).count .allowed ∧
      ((fresh ⟨1, 10⟩).admits (calls.map Prod.fst)).countP (· ≤ 5000000000) ≤
        ((fresh ⟨2, 10⟩).admits (calls.map Prod.fst)).countP (· ≤ 5000000000) := by
  intro calls
  have hresp : (Policy.mk 1 10).Respects (selected calls) := by
    have hspaced : ∀ t : ℕ, ¬ (t ≤ 5000000000 ∧ 15000000000 < t + 10000000000) := by omega
    intro t
    change [5000000000, 15000000000].countP (Instant.inWindow t 10000000000) ≤ 1
    by_contra hboth
    simp only [List.countP_cons, List.countP_nil, Instant.inWindow_iff] at hboth
    have := hspaced t
    split_ifs at hboth <;> omega
  have hsorted : (calls.map Prod.fst).Pairwise (· ≤ ·) := by decide
  have hlead := selected_le_allowed ⟨1, 10⟩ calls le_rfl hsorted
  exact ⟨hresp, by decide +kernel, hlead.1 hresp 4, hlead.2 2 (by decide) 5000000000⟩

end Limiter

end CodeReview

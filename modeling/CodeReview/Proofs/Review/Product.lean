import CodeReview.Proofs.Review.Submission
import CodeReview.Proofs.Session.Conduct

/-!
# What a review stores

A review that waits for the limiter submits itself several times, and one of its submissions decides
on it (`Desk.decisive`): what comes of that one comes of the review.  All that a review does to the
disk is to store the text that the model then gave, if it gave one, at the path that follows from
the output which was asked for (`Session.review_disk`).  Everything before leaves the disk as it
was, and so the path can be told beforehand.
-/

namespace CodeReview

open Act Command

/-! ### What leaves the disk alone -/

namespace Machine

/-- The disk is as it was, and so is the time in the names of generated files. -/
def Undisturbed (m m' : Machine) : Prop := m'.disk = m.disk ∧ m'.stamp = m.stamp

instance : IsPreorder Machine Undisturbed where
  refl _ := ⟨rfl, rfl⟩
  trans _ _ _ h h' := ⟨h'.1.trans h.1, h'.2.trans h.2⟩

end Machine

/-- What only reads disturbs nothing that reviews depend on. -/
lemma Act.Within.undisturbed {α : Type} {act : Act α} (h : act.Within .reading) :
    act.Keeps Machine.Undisturbed := h.keeps fun _ _ hpermits => ⟨hpermits.disk.symm, rfl⟩

/-! ### Deposits -/

/-- A text that is to be stored, and the path to store it at. -/
structure Deposit where
  path : String
  text : String

/-- The disk after a deposit, if there is one. -/
def Disk.withDeposit (d : Disk) (deposit : Option Deposit) : Disk :=
  deposit.elim d fun x => (d.store x.path x.text).2

/-- What delivering a text deposits where an output was asked for. -/
def Delivery.deposit? (m : Machine) (output : Option String) (locator : String)
    (operation : Operation) (text : Option String) : Option Deposit :=
  match text, output with
  | some text, some destination => some ⟨targetPath m destination locator operation, text⟩
  | _, _ => none

variable {m m' : Machine}

/-- The path of a result depends on no more than the disk and the time. -/
lemma Machine.Undisturbed.deposit? (h : m.Undisturbed m') (output : Option String)
    (locator : String) (operation : Operation) (text : Option String) :
    Delivery.deposit? m' output locator operation text =
      Delivery.deposit? m output locator operation text := by
  have htarget : ∀ destination, Delivery.targetPath m' destination locator operation =
      Delivery.targetPath m destination locator operation := by
    intro destination
    rw [Delivery.targetPath, Delivery.targetPath, h.1, h.2]
  simp only [Delivery.deposit?, htarget]

/-- Delivering a text deposits it where an output was asked for, and else leaves the disk as it
is. -/
lemma Delivery.deliver_disk (m : Machine) (text : String) (output : Option String)
    (locator : String) (operation : Operation) :
    ((deliver text output locator operation).run.run m).2.disk =
      m.disk.withDeposit (deposit? m output locator operation (some text)) := by
  unfold deliver
  cases output with
  | none =>
      cases hprinter : m.printer with
      | none =>
          have hprint := print_leaves m text (by rw [hprinter]; exact write_leaves_ok m _)
          exact congrArg (·.2.disk) (hprint.bind_pure fun _ => printed).run_eq
      | some r =>
          have hprint := print_leaves m text (by rw [hprinter]; exact write_leaves_error m r _)
          have hdeliver := hprint.bind_error (f := fun _ => pure printed)
          exact congrArg (·.2.disk) hdeliver.run_eq
  | some destination =>
      obtain ⟨r, t, hsave, hdisk, -⟩ :=
        save_leaves m (targetPath m destination locator operation) text
      have hdeliver := Command.leaves_get_bind (f := fun m => do
        let path := targetPath m destination locator operation
        store path text
        Act.log .info ("💾 Output saved to " ++ path)
        pure (saved path)) hsave fun _ _ => rfl
      exact (congrArg (·.2.disk) hdeliver.run_eq).trans hdisk

/-- The text in an answer of a model, if there is one. -/
def textOf : Option (Except ServiceFault String) → Option String
  | some (.ok text) => some text
  | _ => none

/-- Serving a review deposits the text that the model gives to it. -/
lemma Desk.serve_disk {timeout : Duration} {p : Prepared} {a : Option (Except ServiceFault String)}
    {t : Trace} (h : (p.question.ask timeout).Leaves m a t) (hdisk : t.disk = m.disk)
    (i : Invocation) : ((serve timeout p i).run.run m).2.disk =
      m.disk.withDeposit (Delivery.deposit? m i.output i.locator p.operation (textOf a)) := by
  obtain ⟨t', hask, -, hdisk'⟩ := Desk.ask_leaves timeout p h
  have hsame : m.Undisturbed (m.after t') := ⟨hdisk'.trans hdisk, rfl⟩
  unfold serve
  rcases a with _ | f | text
  · rw [run_bind_of_error hask.run_eq]
    exact hsame.1
  · rw [run_bind_of_error hask.run_eq]
    exact hsame.1
  · rw [run_bind_of_ok hask.run_eq, Delivery.deliver_disk, hsame.1, hsame.deposit?]
    rfl

/-! ### One submission -/

namespace Submission

variable {s : Submission} {events : List Event} {r : Except Failure Delivery} {disk : Disk}

/-- The text that the model gives to the submission, if it is admitted and the model gives one. -/
def text? (s : Submission) : Option String :=
  match s.decision with
  | .allowed => textOf s.answer
  | .denied _ => none

/-- What the submission deposits. -/
def deposit? (s : Submission) : Option Deposit :=
  Delivery.deposit? s.machine s.invocation.output s.invocation.locator s.prepared.operation s.text?

/-- **A submission deposits the text that the model gave to it**, where an output was asked for. -/
lemma after_disk (s : Submission) : s.after.disk = s.machine.disk.withDeposit s.deposit? := by
  have hgate := s.desk.askLimiter_run s.machine
  unfold after outcome Desk.submit deposit? text?
  cases hdecision : s.decision with
  | denied wait =>
      rw [decision] at hdecision
      rw [hdecision] at hgate
      rw [run_bind_of hgate]
      rfl
  | allowed =>
      rw [decision] at hdecision
      rw [hdecision] at hgate
      rw [run_bind_of hgate]
      obtain ⟨a, t, hask, hdisk, -⟩ :=
        s.prepared.question.ask_leaves s.desk.config.requestTimeout s.machine
      have hanswer : s.answer = a := congrArg Prod.fst hask.run_eq
      -- the decision of the limiter, though it is told, makes no difference to the answer
      have hcounts : s.machine.CountsAs (s.machine.journal ++ [.decided s.machine.clock .allowed]) :=
        s.machine.countsAs_append (by simp [Event.isCounted])
      rw [hanswer]
      exact Desk.serve_disk (hask.withJournal hcounts) hdisk s.invocation

/-- A submission that is denied asks to be brought again, and leaves everything else alone. -/
lemma Ends.of_denied (h : s.Ends events r disk) {wait : Duration}
    (hdecision : s.decision = .denied wait) : r = .error (.rateLimited wait) := by
  cases h with
  | denied hdenied =>
      obtain rfl := Decision.denied.inj (hdenied.symm.trans hdecision)
      rfl
  | cancelled hallowed => exact absurd (hallowed.symm.trans hdecision) nofun
  | refused hallowed => exact absurd (hallowed.symm.trans hdecision) nofun
  | answered hallowed => exact absurd (hallowed.symm.trans hdecision) nofun

/-- A submission that is admitted is not brought again. -/
lemma Ends.of_allowed (h : s.Ends events r disk) (hdecision : s.decision = .allowed)
    (wait : Duration) : r ≠ .error (.rateLimited wait) := by
  cases h with
  | denied hdenied => exact absurd (hdenied.symm.trans hdecision) nofun
  | cancelled => exact nofun
  | @refused f =>
      unfold Desk.refused
      split <;> exact nofun
  | answered _ _ hdelivers => cases hdelivers <;> exact nofun

end Submission

/-! ### The submission that decides -/

namespace Desk

/-- Wait for the limiter, as a submission does that may be brought again. -/
def await (all waits : ℕ) (retryAfter : Duration) : Act Unit := do
  Act.log .warn ("⏳ Rate limit reached, waiting " ++ retryAfter.seconds ++ "s (" ++
    toString (all - waits) ++ "/" ++ toString all ++ ")")
  Act.note (.waited retryAfter)
  Act.pass retryAfter

/-- The submission that decides on a review: the first one that is admitted, or the last one. -/
def decisive (all : ℕ) (p : Prepared) (i : Invocation) : ℕ → Desk → Machine → Submission
  | 0, d, m => ⟨d, m, p, i⟩
  | waits + 1, d, m =>
    let s : Submission := ⟨d, m, p, i⟩
    match s.decision with
    | .allowed => s
    | .denied retryAfter =>
      decisive all p i waits s.deskAfter ((await all waits retryAfter).run s.after).2

/-- A submission that is denied leaves the decision to those after it, -/
lemma decisive_of_denied {all waits : ℕ} {s : Submission} {wait : Duration}
    (h : s.decision = .denied wait) :
    decisive all s.prepared s.invocation (waits + 1) s.desk s.machine =
      decisive all s.prepared s.invocation waits s.deskAfter
        ((await all waits wait).run s.after).2 := by
  simp only [decisive, h]

/-- and one that is admitted decides. -/
lemma decisive_of_allowed {all waits : ℕ} {s : Submission} (h : s.decision = .allowed) :
    decisive all s.prepared s.invocation (waits + 1) s.desk s.machine = s := by
  simp only [decisive, h]

/-- What comes of a submission that is not brought again. -/
lemma submitPatiently_of_done {all : ℕ} {s : Submission}
    (h : ∀ wait, s.result ≠ .error (.rateLimited wait)) (waits : ℕ) :
    (submitPatiently all s.prepared s.invocation waits s.desk).run s.machine = s.outcome := by
  cases waits with
  | zero => rfl
  | succ waits =>
      have houtcome : s.outcome = ((s.result, s.deskAfter), s.after) := rfl
      rw [submitPatiently, run_bind_of s.submit_run, houtcome]
      rcases hresult : s.result with f | delivery
      · cases f with
        | rateLimited wait => exact absurd hresult (h wait)
        | _ => rfl
      · rfl

/-- What comes of a submission that is brought again. -/
lemma submitPatiently_of_denied {all waits : ℕ} {s : Submission} {wait : Duration}
    (h : s.result = .error (.rateLimited wait)) :
    (submitPatiently all s.prepared s.invocation (waits + 1) s.desk).run s.machine =
      (submitPatiently all s.prepared s.invocation waits s.deskAfter).run
        ((await all waits wait).run s.after).2 := by
  rw [submitPatiently, run_bind_of s.submit_run, h]
  rfl

/-- **What comes of the submission that decides comes of the review.** -/
lemma submitPatiently_run (all : ℕ) (p : Prepared) (i : Invocation) (waits : ℕ) (d : Desk)
    (m : Machine) :
    (submitPatiently all p i waits d).run m = (decisive all p i waits d m).outcome := by
  induction waits generalizing d m with
  | zero => rfl
  | succ waits ih =>
      let s : Submission := ⟨d, m, p, i⟩
      cases hdecision : s.decision with
      | denied wait =>
          rw [decisive_of_denied (s := s) hdecision, ← ih]
          exact submitPatiently_of_denied (s := s) (s.ends.1.of_denied hdecision)
      | allowed =>
          rw [decisive_of_allowed (s := s) hdecision]
          exact submitPatiently_of_done (s := s) (s.ends.1.of_allowed hdecision) (waits + 1)

/-- Waiting disturbs nothing that reviews depend on. -/
lemma await_undisturbed (all waits : ℕ) (retryAfter : Duration) :
    (await all waits retryAfter).Keeps Machine.Undisturbed := fun _ => ⟨rfl, rfl⟩

/-- The submission that decides is one of the review that was prepared, and all that came before it
left the disk as it was. -/
lemma decisive_facts (all : ℕ) (p : Prepared) (i : Invocation) (waits : ℕ) (d : Desk)
    (m : Machine) : m.Undisturbed (decisive all p i waits d m).machine ∧
      (decisive all p i waits d m).prepared = p ∧ (decisive all p i waits d m).invocation = i := by
  induction waits generalizing d m with
  | zero => exact ⟨⟨rfl, rfl⟩, rfl, rfl⟩
  | succ waits ih =>
      let s : Submission := ⟨d, m, p, i⟩
      cases hdecision : s.decision with
      | denied wait =>
          obtain ⟨hsame, hrest⟩ := ih s.deskAfter ((await all waits wait).run s.after).2
          obtain ⟨-, -, t, hafter⟩ := s.ends
          have hdisk : s.after.disk = m.disk := by
            have hnothing : s.deposit? = none := by
              simp [Submission.deposit?, Submission.text?, hdecision, Delivery.deposit?]
            rw [s.after_disk, hnothing]
            rfl
          have hstamp : s.after.stamp = m.stamp := by rw [hafter]; rfl
          have hsubmitted : m.Undisturbed s.after := ⟨hdisk, hstamp⟩
          have hawaited := await_undisturbed all waits wait s.after
          rw [decisive_of_denied (s := s) hdecision]
          exact ⟨trans_of Machine.Undisturbed (trans_of _ hsubmitted hawaited) hsame, hrest⟩
      | allowed =>
          rw [decisive_of_allowed (s := s) hdecision]
          exact ⟨⟨rfl, rfl⟩, rfl, rfl⟩

end Desk

/-! ### A whole review -/

namespace Session

/-- The submission that decides on a review, if the review gets that far. -/
def decisive? (s : Session) (wait : Bool) (i : Invocation) (m : Machine) : Option Submission :=
  match s.openDesk.run m with
  | (.error _, _) => none
  | (.ok d, m) =>
    match (i.prepare d.config).run.run m with
    | (.error _, _) => none
    | (.ok p, m) => some (Desk.decisive maxWaits p i (if wait then maxWaits else 0) d m)

/-- Opening a desk disturbs nothing that reviews depend on. -/
lemma openDesk_undisturbed (s : Session) : s.openDesk.Keeps Machine.Undisturbed := by
  unfold openDesk
  cases s.desk with
  | some d => exact Act.keeps_pure _
  | none =>
      have hload : Act.Keeps Machine.Undisturbed (Config.load s.configPath).run :=
        Act.Within.undisturbed (Config.load_reading _)
      have hnote (e : Event) : Act.Keeps Machine.Undisturbed (Act.note e) := fun _ => ⟨rfl, rfl⟩
      exact hload.bind fun r => (hnote _).bind fun _ => Act.keeps_pure _

/-- The submission that decides on a review is for its operation, and finds the disk that the review
found. -/
lemma decisive?_facts {s : Session} {wait : Bool} {i : Invocation} {x : Submission}
    (h : s.decisive? wait i m = some x) : m.Undisturbed x.machine ∧ x.invocation = i ∧
      x.prepared.operation = i.operation := by
  have hopen := s.openDesk_undisturbed m
  unfold decisive? at h
  rcases hopened : s.openDesk.run m with ⟨f | d, m₁⟩
  · rw [hopened] at h
    cases h
  · rw [hopened] at h hopen
    have hprepare := Act.Within.undisturbed (i.prepare_reading d.config) m₁
    simp only at h
    rcases hprepared : (i.prepare d.config).run.run m₁ with ⟨f | p, m₂⟩
    · rw [hprepared] at h
      cases h
    · rw [hprepared] at h hprepare
      obtain rfl := Option.some.inj h
      obtain ⟨hsame, hp, hi⟩ :=
        Desk.decisive_facts maxWaits p i (if wait then maxWaits else 0) d m₂
      refine ⟨trans_of Machine.Undisturbed (trans_of Machine.Undisturbed hopen hprepare) hsame, hi, ?_⟩
      rw [hp]
      exact (Invocation.facts_of_prepare hprepared).1

/-- What a review deposits. -/
def deposit? (s : Session) (wait : Bool) (i : Invocation) (m : Machine) : Option Deposit :=
  Delivery.deposit? m i.output i.locator i.operation ((s.decisive? wait i m).bind Submission.text?)

/-- **All that a review does to the disk is to deposit the text that the model gave to it.** -/
theorem review_disk (s : Session) (wait : Bool) (i : Invocation) (m : Machine) :
    ((s.review wait i).run m).2.disk = m.disk.withDeposit (s.deposit? wait i m) := by
  have hopen := s.openDesk_undisturbed m
  have hfacts := @decisive?_facts m s wait i
  unfold review deposit?
  unfold decisive? at hfacts ⊢
  rcases hopened : s.openDesk.run m with ⟨f | d, m₁⟩
  · rw [hopened] at hopen
    rw [run_bind_of hopened]
    exact hopen.1
  · rw [hopened] at hopen hfacts
    rw [run_bind_of hopened]
    have hprepare := Act.Within.undisturbed (i.prepare_reading d.config) m₁
    simp only at hfacts ⊢
    rcases hprepared : (i.prepare d.config).run.run m₁ with ⟨f | p, m₂⟩
    · rw [hprepared] at hprepare
      rw [run_bind_of hprepared]
      exact hprepare.1.trans hopen.1
    · rw [hprepared] at hfacts
      rw [run_bind_of hprepared]
      have hrun := Desk.submitPatiently_run maxWaits p i (if wait then maxWaits else 0) d m₂
      simp only at hfacts ⊢
      generalize Desk.decisive maxWaits p i (if wait then maxWaits else 0) d m₂ = x at hfacts hrun ⊢
      obtain ⟨hsame, hinvocation, hoperation⟩ := hfacts rfl
      rw [run_bind_of hrun]
      have hdeposit : x.deposit? =
          Delivery.deposit? m i.output i.locator i.operation x.text? := by
        rw [Submission.deposit?, hsame.deposit?, hinvocation, hoperation]
      refine x.after_disk.trans ?_
      rw [hsame.1, hdeposit]
      rfl

end Session

end CodeReview

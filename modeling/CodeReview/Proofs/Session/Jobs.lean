import CodeReview.Program.Basic
import CodeReview.Proofs.Config.SampleFile
import CodeReview.Proofs.Review.Product
import CodeReview.Proofs.Session.FailedLoad

/-!
# The jobs of a run

A run of the program, whatever its words and lines are, carries out one order after the other, each
on the machine that the ones before left (`Program.jobs`).  The disk is what these jobs make of it
(`Program.follows_jobs`): greeting, prompts, help and the reports of failures do not touch it.  What
a job does to the disk is one deposit at most, the result of a review or the sample
(`Job.after_disk`).
-/

namespace CodeReview

open CodeReview.Text CodeReview.CommandLine Act Command

variable {m : Machine}

/-! ### What `init` deposits -/

/-- The sample is deposited where it is wanted and nothing is found. -/
def Config.deposit? (m : Machine) (path : String) (writeSample : Bool) : Option Deposit :=
  if writeSample && !m.disk.exists? path then some ⟨path, sample⟩ else none

/-- All that `init` does to the disk is to deposit the sample. -/
lemma Session.init_disk (path : String) (writeSample : Bool) (m : Machine) :
    ((init path writeSample).run.run m).2.disk =
      m.disk.withDeposit (Config.deposit? m path writeSample) := by
  have hsampled : m.disk.withDeposit (Config.deposit? m path writeSample) =
      m.sampled path writeSample := by
    unfold Config.deposit? Machine.sampled
    split_ifs <;> rfl
  rw [hsampled]
  rcases init_cases path writeSample m with ⟨e, hwanted, -, hrun⟩ | ⟨es, -, hrun⟩
  · rw [hrun, Machine.sampled, if_pos hwanted]
    rfl
  · rw [hrun]
    exact (Act.Within.undisturbed (examine_reading path) _).1

/-! ### Jobs -/

/-- An order that a session carries out on a machine. -/
structure Job where
  session : Session
  wait : Bool
  initPath : String
  order : Order
  machine : Machine

namespace Job

/-- The machine after the job. -/
def after (j : Job) : Machine :=
  ((j.session.run j.wait j.initPath j.order).run j.machine).2

/-- What the job deposits. -/
def deposit? (j : Job) : Option Deposit :=
  match j.order with
  | .init writeSample => Config.deposit? j.machine j.initPath writeSample
  | .review i => j.session.deposit? j.wait i j.machine

/-- **All that a job does to the disk is one deposit.** -/
theorem after_disk (j : Job) : j.after.disk = j.machine.disk.withDeposit j.deposit? := by
  obtain ⟨s, wait, initPath, order, m⟩ := j
  refine (s.run_eq_carryOut wait initPath order m).2.trans ?_
  unfold deposit?
  cases order with
  | init writeSample => exact Session.init_disk initPath writeSample m
  | review i =>
      refine Eq.trans ?_ (s.review_disk wait i m)
      unfold Session.carryOut
      rcases hreview : (s.review wait i).run m with ⟨⟨f | delivery, s'⟩, m'⟩
      · rw [run_bind_of hreview]
        rfl
      · rw [run_bind_of hreview]
        cases delivery <;> rfl

/-- The jobs come one after the other, and lead from the one disk to the other. -/
def Follows (d : Disk) : List Job → Disk → Prop
  | [], d' => d' = d
  | j :: rest, d' => j.machine.disk = d ∧ Follows j.after.disk rest d'

variable {d d' : Disk} {js : List Job} {place : Place}

/-- What has changed in the end was changed by one of the jobs. -/
lemma Follows.exists_changed (h : Follows d js d') (hchanged : d'.get? place ≠ d.get? place) :
    ∃ j ∈ js, j.after.disk.get? place ≠ j.machine.disk.get? place := by
  induction js generalizing d with
  | nil =>
      obtain rfl : d' = d := h
      exact absurd rfl hchanged
  | cons j rest ih =>
      obtain ⟨hdisk, hrest⟩ := h
      by_cases hsame : d'.get? place = j.after.disk.get? place
      · refine ⟨j, List.mem_cons_self, ?_⟩
        rwa [← hsame, hdisk]
      · obtain ⟨j', hj', hchanged'⟩ := ih hrest hsame
        exact ⟨j', List.mem_cons_of_mem j hj', hchanged'⟩

/-- A job that may be there or not comes before others. -/
lemma follows_toList {job : Option Job} (hjob : ∀ j ∈ job, j.machine.disk = d)
    (h : Follows (job.elim d (·.after.disk)) js d') : Follows d (job.toList ++ js) d' := by
  cases job with
  | none => exact h
  | some j => exact ⟨hjob j rfl, h⟩

end Job

/-! ### The jobs of a session -/

namespace Session

/-- The job that a line without blank ends gives to a session, if it gives one. -/
def lineJob? (s : Session) (line : String) (m : Machine) : Option Job :=
  (spelled? line).bind fun c =>
    let wait := s.waitOnRateLimit || c.waitOnRateLimit
    match c.order with
    | none => none
    | some (.init writeSample) =>
      some ⟨s, wait, c.configPath.getD s.configPath, .init writeSample, m⟩
    | some (.review i) =>
      match c.configPath.elim (.ok s) (s.switchConfig line) with
      | .error _ => none
      | .ok s => some ⟨s, wait, s.configPath, .review i, m⟩

/-- The job that a line of input gives to a session. -/
def job? (s : Session) (line : List UInt8) (m : Machine) : Option Job :=
  (String.fromUTF8? ⟨line.toArray⟩).bind fun text =>
    if trim text == "" then none
    else if isExit (trim text) then none
    else s.lineJob? (trim text) m

/-- The disk after a job, if there is one. -/
def diskAfter (m : Machine) (job : Option Job) : Disk := job.elim m.disk (·.after.disk)

/-- Text in the console leaves the disk alone. -/
lemma display_disk (text : String) (flush : Bool) (m : Machine) :
    ((display text flush).run.run m).2.disk = m.disk := by
  have hget : (get : Command Machine).run.run m = (.ok m, m) := rfl
  unfold display Command.write Act.write
  rw [run_bind_of_ok hget, run_orFail]
  cases m.console with
  | none => rfl
  | some r => cases hwhen : r.whenFlushed <;> simp only [hwhen] <;> rfl

/-- All that a typed command does to the disk is its job. -/
lemma runTyped_disk (s : Session) {line : String} {c : Line} (h : spelled? line = some c)
    (m : Machine) : ((s.runTyped line c).run m).2.disk = diskAfter m (s.lineJob? line m) := by
  unfold runTyped lineJob?
  rw [h]
  simp only [Option.bind]
  rcases c.order with _ | writeSample | i
  · rfl
  · rfl
  · simp only
    cases c.configPath.elim (.ok s) (s.switchConfig line) with
    | error f => rfl
    | ok s' => rfl

/-- A line that spells no command line gives no job. -/
lemma lineJob?_of_unspelled (s : Session) {line : String} (h : spelled? line = none)
    (m : Machine) : s.lineJob? line m = none := by
  rw [lineJob?, h]
  rfl

/-- All that a line does to the disk is the job that it gives. -/
lemma runLine_disk (s : Session) (line : String) (m : Machine) :
    ((s.runLine line).run m).2.disk = diskAfter m (s.lineJob? line m) := by
  cases hspelled : spelled? line with
  | some c =>
      rw [runLine_of_spelled s hspelled]
      exact s.runTyped_disk hspelled m
  | none =>
      rw [s.lineJob?_of_unspelled hspelled]
      unfold spelled? at hspelled
      unfold runLine
      cases hwords : words? line with
      | none => rfl
      | some words =>
          rw [hwords] at hspelled
          simp only at hspelled ⊢
          cases hparse : parse words with
          | ok c => simp [hparse, Except.toOption] at hspelled
          | error stop =>
              cases stop with
              | fault f => rfl
              | help topic => exact display_disk topic.text false m

/-- **What a line of input does to the disk is what its job does to it.** -/
lemma takeLine_disk (s : Session) (line : List UInt8) (m : Machine) :
    ((s.takeLine line).run m).2.disk = diskAfter m (s.job? line m) := by
  unfold takeLine job?
  cases String.fromUTF8? ⟨line.toArray⟩ with
  | none => rfl
  | some text =>
      simp only [Option.bind]
      unfold answerLine
      dsimp only
      split_ifs
      · rfl
      · rfl
      · have hdisk := s.runLine_disk (trim text) m
        rcases hrun : (s.runLine (trim text)).run m with ⟨⟨f | _, s'⟩, m'⟩
        · rw [hrun] at hdisk
          rw [run_bind_of hrun]
          exact (display_disk _ false (m'.note (.logged .debug f.details))).trans hdisk
        · rw [hrun] at hdisk
          rw [run_bind_of hrun]
          exact hdisk

/-- The job that a line gives is carried out on the machine that the line finds. -/
lemma machine_of_job? {s : Session} {line : List UInt8} {j : Job} (h : s.job? line m = some j) :
    j.machine = m := by
  unfold job? at h
  obtain ⟨text, -, h⟩ := Option.bind_eq_some_iff.mp h
  split_ifs at h
  unfold lineJob? at h
  obtain ⟨c, -, h⟩ := Option.bind_eq_some_iff.mp h
  dsimp only at h
  split at h
  case h_1 => cases h
  case h_2 =>
    obtain rfl := Option.some.inj h
    rfl
  case h_3 =>
    split at h
    case h_1 => cases h
    case h_2 =>
      obtain rfl := Option.some.inj h
      rfl

/-- The jobs that lines give to a session, each on the machine that it finds. -/
def jobs (s : Session) (m : Machine) : List (List UInt8) → List Job
  | [] => []
  | line :: rest =>
    match prompt.run.run m with
    | (.error _, _) => []
    | (.ok (), m) =>
      (s.job? line m).toList ++
        match (s.takeLine line).run m with
        | ((.ok true, s), m) => s.jobs m rest
        | _ => []

/-- **What lines do to the disk is what their jobs do to it**, one after the other. -/
lemma follows_jobs (s : Session) (m : Machine) (lines : List (List UInt8)) :
    Job.Follows m.disk (s.jobs m lines) ((s.takeLines lines).run m).2.disk := by
  induction lines generalizing s m with
  | nil =>
      have hprompt : (prompt.run.run m).2.disk = m.disk := display_disk promptText true m
      unfold takeLines
      rcases hrun : prompt.run.run m with ⟨f | _, m₁⟩
      · rw [hrun] at hprompt
        rw [run_bind_of hrun]
        exact hprompt
      · rw [hrun] at hprompt
        rw [run_bind_of hrun]
        exact (display_disk "\n" false m₁).trans hprompt
  | cons line rest ih =>
      have hprompt : (prompt.run.run m).2.disk = m.disk := display_disk promptText true m
      unfold takeLines jobs
      rcases hrun : prompt.run.run m with ⟨f | _, m₁⟩
      · rw [hrun] at hprompt
        rw [run_bind_of hrun]
        exact hprompt
      · rw [hrun] at hprompt
        rw [run_bind_of hrun, ← hprompt]
        have htake := s.takeLine_disk line m₁
        refine Job.follows_toList (fun j hj => by rw [machine_of_job? hj]) ?_
        rw [← diskAfter, ← htake]
        rcases htaken : (s.takeLine line).run m₁ with ⟨⟨f | _ | _, s'⟩, m₂⟩
        · rw [run_bind_of htaken]
          rfl
        · rw [run_bind_of htaken]
          rfl
        · rw [run_bind_of htaken]
          exact ih s' m₂

/-- Greeting and farewell leave the disk alone. -/
lemma interact_disk (s : Session) (lines : List (List UInt8)) (m : Machine) :
    ((s.interact lines).run m).2.disk =
      ((s.takeLines lines).run (greet.run m).2).2.disk := by
  have hgreet : greet.run m = ((), (greet.run m).2) := rfl
  unfold interact
  rw [run_bind_of hgreet]
  rcases htaken : (s.takeLines lines).run (greet.run m).2 with ⟨⟨r, s'⟩, m'⟩
  rw [run_bind_of htaken]
  exact (Act.Within.undisturbed (part_reading r) m').1

end Session

/-! ### The jobs of the program -/

namespace Program

/-- The jobs of a command line: its order, or those that the lines give to its session. -/
def lineJobs (c : Line) (m : Machine) (lines : List (List UInt8)) : List Job :=
  let s := sessionOf m c
  match c.order with
  | some order => [⟨s, s.waitOnRateLimit, s.configPath, order, m⟩]
  | none => s.jobs (Session.greet.run m).2 lines

/-- The jobs of the program. -/
def jobs (words : List String) (lines : List (List UInt8)) (m : Machine) : List Job :=
  match parse words with
  | .error _ => []
  | .ok c => lineJobs c (warnOfFilter.run m).2 lines

/-- The jobs of a command line come one after the other and make its disk. -/
lemma follows_lineJobs (c : Line) (m : Machine) (lines : List (List UInt8)) :
    Job.Follows m.disk (lineJobs c m lines) ((execute c lines).run m).2.disk := by
  have hget : (get : Act Machine).run m = (m, m) := rfl
  unfold lineJobs execute
  rw [run_bind_of hget]
  cases c.order with
  | some order => exact ⟨rfl, rfl⟩
  | none =>
      have hlines := (sessionOf m c).follows_jobs (Session.greet.run m).2 lines
      rw [← Session.interact_disk] at hlines
      exact hlines

/-- Warning of a filter leaves the disk alone. -/
lemma warnOfFilter_disk (m : Machine) : (warnOfFilter.run m).2.disk = m.disk := by
  have hnotes (ws : List String) (m : Machine) :
      ((ws.forM fun w => Act.note (.complained w)).run m).2.disk = m.disk := by
    induction ws generalizing m with
    | nil => rfl
    | cons w rest ih => exact ih (m.note (.complained w))
  exact hnotes _ m

/-- Ending a program leaves the disk alone. -/
lemma conclude_disk (r : Except Failure Unit) (m : Machine) :
    ((conclude r).run m).2.disk = m.disk := by
  cases r <;> rfl

/-- **What a run of the program does to the disk is what its jobs do to it**, one after the
other. -/
theorem follows_jobs (words : List String) (lines : List (List UInt8)) (m : Machine) :
    Job.Follows m.disk (jobs words lines m) ((run words lines).run m).2.disk := by
  unfold jobs run
  cases parse words with
  | error stop => cases stop <;> rfl
  | ok c =>
      have hjobs := follows_lineJobs c (warnOfFilter.run m).2 lines
      have hend := conclude_disk ((execute c lines).run (warnOfFilter.run m).2).1
        ((execute c lines).run (warnOfFilter.run m).2).2
      rw [warnOfFilter_disk, ← hend] at hjobs
      exact hjobs

end Program

end CodeReview

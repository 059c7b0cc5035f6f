import CodeReview.Proofs.Machine.Licensed

/-!
# What `init` comes to

`init` reads a configuration and reports on it at length, and in the end it succeeds or fails as
loading the configuration does (`Session.init_result`).  The report of an order, that it is done and
how long it took, changes nothing about that (`Session.run_eq_carryOut`).
-/

namespace CodeReview

open CodeReview.CommandLine

namespace Session

/-- What `init` tells first. -/
def starting : Event := .logged .info "🚀 Initializing reverse-engineer configuration..."

variable {m m' : Machine} {path : String}

/-- What `init` tells where there is no configuration. -/
def advice : Event := .logged .error
  "💡 Run 'reverse-engineer init --write-sample' to create a configuration file."

/-- Where a configuration cannot be read, that is all. -/
lemma examine_run_of_error {f : Failure} (hread : (Config.read path).run.run m = (.error f, m')) :
    (examine path).run.run m = (.error f, m'.note advice) := by
  unfold examine
  have hcaught := Command.run_tryCatch_of_error hread fun f => do
    Act.log .error "💡 Run 'reverse-engineer init --write-sample' to create a configuration file."
    throw f
  rw [Command.run_bind_of_error hcaught]
  rfl

/-- A configuration that can be read is reported on, and then judged. -/
lemma examine_run_of_ok {c : Config} (hread : (Config.read path).run.run m = (.ok c, m')) :
    let summarized := ((summarize c).run m').2
    (examine path).run.run m =
      (if c.problems.isEmpty then .ok () else .error (Config.invalid path c.problems),
        ((Config.verdict summarized c).report.run summarized).2) := by
  unfold examine
  have hcaught := Command.run_tryCatch_of_ok hread fun f => do
    Act.log .error "💡 Run 'reverse-engineer init --write-sample' to create a configuration file."
    throw f
  have hsummary := Command.run_lift (summarize c) m'
  have hget (m : Machine) : (get : Command Machine).run.run m = (.ok m, m) := rfl
  rw [Command.run_bind_of_ok hcaught, Command.run_bind_of_ok hsummary,
    Command.run_bind_of_ok (hget _), Command.run_bind_of_ok (Command.run_lift _ _)]
  simp only [Config.Verdict.isValid, Config.verdict]
  rcases Bool.eq_false_or_eq_true c.problems.isEmpty with hproblems | hproblems
  · simp only [hproblems, Bool.not_true, Bool.false_eq_true, if_false, if_true]
    rfl
  · simp only [hproblems, Bool.not_false, Bool.false_eq_true, if_false, if_true]
    rfl

/-- A configuration passes examination exactly where it is loaded, and fails it as loading does. -/
lemma examine_result (path : String) (m : Machine) :
    ((examine path).run.run m).1 = ((Config.load path).run.run m).1.map fun _ => () := by
  rcases hread : (Config.read path).run.run m with ⟨r, m₁⟩
  unfold Config.load
  cases r with
  | error f =>
      rw [examine_run_of_error hread, Command.run_bind_of_error hread]
      rfl
  | ok c =>
      rw [examine_run_of_ok hread, Command.run_bind_of_ok hread]
      split_ifs <;> rfl

/-- What the log says makes no difference to a configuration. -/
lemma load_result_logged (path : String) (m : Machine) (level : Level) (text : String) :
    ((Config.load path).run.run (m.note (.logged level text))).1 =
      ((Config.load path).run.run m).1 := by
  obtain ⟨r, t, ht, -⟩ := Config.load_reading path m
  have huncounted : ∀ e ∈ [Event.logged level text], e.isCounted = false := by
    simp [Event.isCounted]
  have hlogged := ht.withJournal (m.countsAs_append huncounted)
  exact (congrArg Prod.fst hlogged.run_eq).trans (congrArg Prod.fst ht.run_eq).symm

/-- **`init` succeeds or fails as loading the configuration does.** -/
lemma init_result (path : String) (m : Machine) : ((init path false).run.run m).1 =
    ((Config.load path).run.run m).1.map fun _ => () := by
  have hinit : (init path false).run.run m = (examine path).run.run (m.note starting) := rfl
  rw [hinit, examine_result, starting, load_result_logged]

/-- With the sample written or not, `init` goes on to read the configuration; where the sample
cannot be written, it ends there. -/
lemma init_run_of_sample {m' : Machine} {r : Except Failure Bool}
    (hsample : (Config.createSample path).run.run (m.note starting) = (r, m')) :
    (init path true).run.run m = match r with
      | .ok true => (examine path).run.run
          (m'.note (.logged .info "📝 Edit the configuration file to add your models."))
      | .ok false => (examine path).run.run m'
      | .error f => (.error f, m') := by
  have hlog : (liftM (Act.log .info "🚀 Initializing reverse-engineer configuration...") :
      Command Unit).run.run m = (.ok (), m.note starting) := rfl
  rcases r with f | _ | _
  · exact (Command.run_bind_of_ok hlog).trans (Command.run_bind_of_error hsample)
  · exact (Command.run_bind_of_ok hlog).trans (Command.run_bind_of_ok hsample)
  · exact (Command.run_bind_of_ok hlog).trans (Command.run_bind_of_ok hsample)

/-- With the sample written, `init` succeeds or fails as loading the configuration then does. -/
lemma init_result_of_created {m' : Machine}
    (hsample : (Config.createSample path).run.run (m.note starting) = (.ok true, m')) :
    ((init path true).run.run m).1 = ((Config.load path).run.run m').1.map fun _ => () := by
  rw [init_run_of_sample hsample, examine_result, load_result_logged]

/-- The report that a command is done changes nothing about its result and about the disk. -/
lemma run_eq_carryOut (s : Session) (wait : Bool) (initPath : String) (order : Order)
    (m : Machine) :
    ((s.run wait initPath order).run m).1 = ((s.carryOut wait initPath order).run m).1 ∧
      ((s.run wait initPath order).run m).2.disk =
        ((s.carryOut wait initPath order).run m).2.disk := by
  rcases hcarry : (s.carryOut wait initPath order).run m with ⟨⟨r, s'⟩, m'⟩
  have hget : (get : Act Machine).run m = (m, m) := rfl
  unfold run
  rw [Act.run_bind_of hget, Act.run_bind_of hcarry]
  rcases r with f | a
  · cases f <;> exact ⟨rfl, rfl⟩
  · exact ⟨rfl, rfl⟩

end Session

end CodeReview

import CodeReview.Proofs.Session.SameEffect

/-!
# Which configurations are accepted

`init` reads a configuration, reports on it and judges it in the end; a review has it loaded, which
reads and judges it at once.  Both come to what the disk has at the path (`Config.atPath`), judged by
the same rules, so that neither the variables with the keys nor anything else around a command has a
say in it, the words of the parsers apart (`Session.init_accepts_as_review`).
-/

namespace CodeReview

namespace Config

/-- What the disk of a machine has at a path, read as a configuration. -/
def atPath (m : Machine) (path : String) : Except Failure Config :=
  if m.disk.exists? path then
    match m.disk.readText path with
    | .error e => .error (.configurationFile path e.message)
    | .ok text =>
      match parse path text with
      | .error e => .error (.configurationFile path (m.wording e))
      | .ok c => .ok c.normalize
  else .error (.configurationFile path "file not found")

/-- A configuration that keeps all rules, or the failure that lists how it does not. -/
def judged (path : String) (c : Config) : Except Failure Config :=
  if c.problems.isEmpty then .ok c else .error (invalid path c.problems)

/-- What comes of reading a configuration is what the disk has at the path. -/
lemma read_result (path : String) (m : Machine) :
    ((read path).run.run m).1 = atPath m path := by
  unfold atPath
  cases hexists : m.disk.exists? path with
  | false => exact congrArg Prod.fst (read_of_absent hexists).run_eq
  | true =>
      cases htext : m.disk.readText path with
      | error e => exact congrArg Prod.fst (read_of_fault hexists htext).run_eq
      | ok text =>
          cases hparse : parse path text with
          | error e =>
              simp only [hparse, if_true]
              exact congrArg Prod.fst (read_of_malformed htext hparse).run_eq
          | ok c =>
              simp only [hparse, if_true]
              exact congrArg Prod.fst (read_of_text htext hparse).run_eq

/-- What comes of loading a configuration is told by the disk, and by the words of the parsers. -/
lemma load_result (path : String) (m : Machine) :
    ((load path).run.run m).1 = (atPath m path).bind (judged path) := by
  rcases hread : (read path).run.run m with ⟨r, m'⟩
  have hresult := read_result path m
  rw [hread] at hresult
  rw [← hresult]
  unfold load
  cases r with
  | error f =>
      rw [Command.run_bind_of_error hread]
      rfl
  | ok c =>
      rw [Command.run_bind_of_ok hread]
      simp only [Except.bind, judged]
      split_ifs <;> rfl

end Config

namespace Session

variable {s : Session} {m m' : Machine} {c : Config} {f : Failure}

/-- A review without a configuration fails as loading it does. -/
lemma review_of_unloaded (hdesk : s.desk = none)
    (hload : (Config.load s.configPath).run.run m = (.error f, m')) (wait : Bool)
    (i : Invocation) : ((s.review wait i).run m).1 = (.error f, s) :=
  congrArg Prod.fst (Act.run_bind_of (openDesk_of_load hdesk hload))

/-- A review whose configuration is loaded leaves its session with a desk, whatever comes of it. -/
lemma review_of_loaded (hdesk : s.desk = none)
    (hload : (Config.load s.configPath).run.run m = (.ok c, m')) (wait : Bool) (i : Invocation) :
    ((s.review wait i).run m).1.2.desk.isSome = true := by
  rcases hprepare : (i.prepare c).run.run (m'.note (.loaded s.configPath (some c))) with ⟨r, m''⟩
  have hreview : (s.review wait i).run m = _ :=
    (Act.run_bind_of (openDesk_of_load hdesk hload)).trans (Act.run_bind_of hprepare)
  rw [hreview]
  cases r with
  | error f => rfl
  | ok p => rfl

/-- **`init` accepts a configuration exactly where reviews do.**  On one disk and with the same
parsers, whatever else the two machines have, `init` succeeds if and only if the configuration can
be loaded, and if and only if a review gets beyond loading it; otherwise all three fail, and with the
same failure. -/
theorem init_accepts_as_review (path : String) (disk : Disk) (m m' : Machine) (wait patient : Bool)
    (i : Invocation) :
    let verdict := ((init path false).run.run { m with disk }).1
    let loaded := ((Config.load path).run.run { m' with disk, wording := m.wording }).1
    let review := ((start path wait).review patient i).run { m' with disk, wording := m.wording }
    verdict = loaded.map (fun _ => ()) ∧
      (verdict = .ok () ↔ review.1.2.desk.isSome = true) ∧
      ∀ f, verdict = .error f ↔ review.1 = (.error f, start path wait) := by
  intro verdict loaded review
  have hverdict : verdict = loaded.map fun _ => () := by
    have hinit : verdict = _ := init_result path { m with disk }
    rw [hinit, Config.load_result]
    exact congrArg (·.map fun _ => ())
      (Config.load_result path { m' with disk, wording := m.wording }).symm
  refine ⟨hverdict, ?_⟩
  rw [hverdict]
  rcases hload : (Config.load path).run.run { m' with disk, wording := m.wording } with ⟨r, m''⟩
  have hloaded : loaded = r := congrArg Prod.fst hload
  rw [hloaded]
  cases r with
  | ok c =>
      have hopen : review.1.2.desk.isSome = true :=
        review_of_loaded (s := start path wait) rfl hload patient i
      refine ⟨⟨fun _ => hopen, fun _ => rfl⟩, fun f => ⟨fun hf => (nomatch hf), fun hf => ?_⟩⟩
      rw [hf] at hopen
      cases hopen
  | error e =>
      have hclosed : review.1 = (.error e, start path wait) :=
        review_of_unloaded (s := start path wait) rfl hload patient i
      rw [hclosed]
      refine ⟨⟨fun hf => (nomatch hf), fun hopen => (nomatch hopen)⟩, fun f => ?_⟩
      simp [Except.map]

end Session

end CodeReview

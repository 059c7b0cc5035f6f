import CodeReview.Proofs.Session.SameEffect
import Mathlib.Data.List.TFAE

/-!
# What a configuration that cannot be loaded leaves behind

Until a configuration has been loaded, a review may be given another path.  The session turns to
that path before the configuration there is tried, and it does not turn back where that fails: all
later lines without a path of their own are carried out as in a session that was started with the
failed path (`Session.runLine_of_unloaded`).

So the session is left as it was only by a path that the session has already, in whatever spelling
(`Session.leftAsItWas_tfae`).  Everything else tells the two apart, reviews as well as `init`: where
nothing is on the disk, they fail under different paths.
-/

namespace CodeReview

open CodeReview.Text CodeReview.CommandLine

/-! ### Lines without a path -/

namespace CommandLine

/-- The command line that a line spells, if it spells one. -/
def spelled? (line : String) : Option Line :=
  match words? line with
  | none => none
  | some words => (parse words).toOption

end CommandLine

/-- Every path is the same as itself. -/
lemma Path.isSame_refl (path : String) : Path.isSame path path = true := by
  simp [Path.isSame]

namespace Session

/-- The path that a session without a configuration turns to for a review that is given this one. -/
def turnedTo (s : Session) (path : String) : String :=
  if Path.isSame path s.configPath then s.configPath else path

/-- Lines that give an order of this kind, and no path, do the same in both sessions, with the same
result. -/
def AgreeOn (orders : Order → Prop) (s s' : Session) : Prop :=
  ∀ line c order, spelled? line = some c → c.configPath = none → c.order = some order →
    orders order → ∀ m, ((s.runLine line).run m).1.1 = ((s'.runLine line).run m).1.1 ∧
      ((s.runLine line).run m).2 = ((s'.runLine line).run m).2

variable {s s' : Session} {m m' : Machine} {line path : String} {c : Line} {i : Invocation}
  {f : Failure}

/-- Every session agrees with itself. -/
lemma agreeOn_refl (orders : Order → Prop) (s : Session) : AgreeOn orders s s :=
  fun _ _ _ _ _ _ _ _ => ⟨rfl, rfl⟩

/-- What a line spells is parsed from its words. -/
lemma spelled?_eq_some (h : spelled? line = some c) :
    ∃ words, words? line = some words ∧ parse words = .ok c := by
  unfold spelled? at h
  split at h
  case h_1 => cases h
  case h_2 words hwords =>
    refine ⟨words, hwords, ?_⟩
    cases hparse : parse words with
    | error e => simp [hparse, Except.toOption] at h
    | ok c' => simpa [hparse, Except.toOption] using h

/-- A line that spells a command line is run as one that was typed. -/
lemma runLine_of_spelled (s : Session) (h : spelled? line = some c) :
    s.runLine line = s.runTyped line c := by
  obtain ⟨words, hwords, hparse⟩ := spelled?_eq_some h
  simp only [runLine, hwords, hparse]

/-- Without a path a line is carried out with the path of the session. -/
lemma runLine_of_pathless (s : Session) (h : spelled? line = some c) {order : Order}
    (hpath : c.configPath = none) (horder : c.order = some order) : s.runLine line =
      s.run (s.waitOnRateLimit || c.waitOnRateLimit) s.configPath order := by
  rw [runLine_of_spelled s h]
  cases order <;> simp only [runTyped, horder, hpath] <;> rfl

/-- A review with a path is carried out by the session that has turned to it. -/
lemma runLine_of_review (s : Session) (hdesk : s.desk = none) (h : spelled? line = some c)
    (horder : c.order = some (.review i)) (hpath : c.configPath = some path) :
    s.runLine line = Session.run { s with configPath := s.turnedTo path }
      (s.waitOnRateLimit || c.waitOnRateLimit) (s.turnedTo path) (.review i) := by
  rw [runLine_of_spelled s h]
  by_cases hsame : Path.isSame path s.configPath = true
  · simp only [runTyped, horder, hpath, Option.elim, switchConfig, turnedTo, hsame, if_true]
  · simp only [runTyped, horder, hpath, Option.elim, switchConfig, turnedTo, hsame, hdesk,
      Bool.false_eq_true, if_false, Option.isSome_none]

/-! ### Failing to load -/

/-- **A review whose configuration cannot be loaded** fails with that, and the session has turned to
its path all the same. -/
theorem runLine_of_unloaded (hdesk : s.desk = none) (h : spelled? line = some c)
    (horder : c.order = some (.review i)) (hpath : c.configPath = some path)
    (hload : (Config.load (s.turnedTo path)).run.run m = (.error f, m')) :
    ((s.runLine line).run m).1 = (.error f, { s with configPath := s.turnedTo path }) ∧
      ((s.runLine line).run m).2.disk = m'.disk := by
  rw [runLine_of_review s hdesk h horder hpath]
  exact run_of_unloaded (s := { s with configPath := s.turnedTo path }) hdesk hload _ _

/-- Where nothing is on the disk, a review names the path of the session. -/
lemma runLine_review_of_empty (hdesk : s.desk = none) (hempty : m.disk.entries = [])
    (h : spelled? line = some c) (hpath : c.configPath = none)
    (horder : c.order = some (.review i)) : ∃ reason,
      ((s.runLine line).run m).1.1 = .error (.configurationFile s.configPath reason) := by
  obtain ⟨reason, m', hload⟩ := Config.load_of_empty hempty s.configPath
  rw [runLine_of_pathless s h hpath horder]
  exact ⟨reason, congrArg Prod.fst (run_of_unloaded hdesk hload _ _).1⟩

/-- Where nothing is on the disk, `init` names the path of the session. -/
lemma runLine_init_of_empty (s : Session) (hempty : m.disk.entries = [])
    (h : spelled? line = some c) (hpath : c.configPath = none)
    (horder : c.order = some (.init false)) : ∃ reason,
      ((s.runLine line).run m).1.1 = .error (.configurationFile s.configPath reason) := by
  obtain ⟨reason, m', hload⟩ := Config.load_of_empty hempty s.configPath
  have hinit := init_result s.configPath m
  rw [hload] at hinit
  rw [runLine_of_pathless s h hpath horder, (s.run_eq_carryOut _ _ _ m).1]
  exact ⟨reason, hinit⟩

/-- Two sessions that look for their configurations at two paths do not agree on reviews: where
nothing is on the disk, a review fails under the path of its session. -/
lemma configPath_eq_of_agree_review (h : AgreeOn (fun order => ∃ i, order = .review i) s s')
    (hdesk : s.desk = none) (hdesk' : s'.desk = none) : s.configPath = s'.configPath := by
  have hline : spelled? "analyze --file snippet" =
      some ⟨none, false, 0, some (.review ⟨.analyze, "snippet", none, none, none, none⟩)⟩ := by
    decide +kernel
  obtain ⟨reason, hreview⟩ := s.runLine_review_of_empty hdesk (m := .bare) rfl hline rfl rfl
  obtain ⟨reason', hreview'⟩ := s'.runLine_review_of_empty hdesk' (m := .bare) rfl hline rfl rfl
  have hresult := (h _ _ _ hline rfl rfl ⟨_, rfl⟩ Machine.bare).1
  rw [hreview, hreview'] at hresult
  exact (Failure.configurationFile.inj (Except.error.inj hresult)).1

/-- They do not agree on `init` either. -/
lemma configPath_eq_of_agree_init
    (h : AgreeOn (fun order => ∃ writeSample, order = .init writeSample) s s') :
    s.configPath = s'.configPath := by
  have hline : spelled? "init" = some ⟨none, false, 0, some (.init false)⟩ := by decide +kernel
  obtain ⟨reason, hinit⟩ := s.runLine_init_of_empty (m := .bare) rfl hline rfl rfl
  obtain ⟨reason', hinit'⟩ := s'.runLine_init_of_empty (m := .bare) rfl hline rfl rfl
  have hresult := (h _ _ _ hline rfl rfl ⟨_, rfl⟩ Machine.bare).1
  rw [hinit, hinit'] at hresult
  exact (Failure.configurationFile.inj (Except.error.inj hresult)).1

/-- **A review whose configuration cannot be loaded leaves the session as it was only where it is
given the session's own path.**  This can be told by the session itself, by the reviews that come
later, and by every later `init`. -/
theorem leftAsItWas_tfae (hdesk : s.desk = none) (h : spelled? line = some c)
    (horder : c.order = some (.review i)) (hpath : c.configPath = some path)
    (hload : (Config.load (s.turnedTo path)).run.run m = (.error f, m')) :
    [((s.runLine line).run m).1.2 = s,
      AgreeOn (fun order => ∃ i, order = .review i) s ((s.runLine line).run m).1.2,
      AgreeOn (fun order => ∃ writeSample, order = .init writeSample) s
        ((s.runLine line).run m).1.2,
      Path.isSame path s.configPath = true].TFAE := by
  rw [(runLine_of_unloaded hdesk h horder hpath hload).1]
  have hsame : s.configPath = s.turnedTo path → Path.isSame path s.configPath = true := by
    intro hturned
    by_contra hother
    rw [turnedTo, if_neg hother] at hturned
    exact hother (hturned ▸ Path.isSame_refl _)
  tfae_have 1 → 2 := by
    intro hself
    rw [hself]
    exact agreeOn_refl _ _
  tfae_have 1 → 3 := by
    intro hself
    rw [hself]
    exact agreeOn_refl _ _
  tfae_have 2 → 4 := fun hagree => hsame (configPath_eq_of_agree_review hagree hdesk hdesk)
  tfae_have 3 → 4 := fun hagree => hsame (configPath_eq_of_agree_init hagree)
  tfae_have 4 → 1 := by
    intro hown
    simp only [turnedTo, hown, if_true]
  tfae_finish

/-- A path that nothing is at. -/
lemma load_of_absent (h : m.disk.exists? path = false) : (Config.load path).run.run m =
    (.error (.configurationFile path "file not found"), m.after ⟨0, [], m.disk⟩) :=
  Command.run_bind_of_error (Config.read_of_absent h).run_eq

/-- The session's own path stays in force when it is given with a slash behind it. -/
theorem leftAsItWas_slash :
    let s := start "config.yaml" false
    let line := "analyze --file snippet --config-path config.yaml/"
    ((s.runLine line).run .bare).1 =
      (.error (.configurationFile "config.yaml" "file not found"), s) := by
  intro s line
  have hline : spelled? line = some ⟨some "config.yaml/", false, 0,
      some (.review ⟨.analyze, "snippet", none, none, none, none⟩)⟩ := by decide +kernel
  have hown : Path.isSame "config.yaml/" s.configPath = true := by decide +kernel
  have habsent : Machine.bare.disk.exists? "config.yaml" = false :=
    Disk.exists?_of_target (by decide)
  have hload := load_of_absent habsent
  have hturned : s.turnedTo "config.yaml/" = "config.yaml" := if_pos hown
  rw [← hturned] at hload
  have hself := ((leftAsItWas_tfae rfl hline rfl rfl hload).out 3 0).mp hown
  have hfault := (runLine_of_unloaded rfl hline rfl rfl hload).1
  rw [hturned] at hfault
  exact Prod.ext (congrArg Prod.fst hfault) hself

/-- **A misspelled path stays in force**: a later review that gives no path does not find the
configuration that the session had before. -/
theorem not_leftAsItWas_typo :
    let s := start "config.yaml" false
    let text := "default_model: m\nmodels:\n  m:\n    provider: openai\n"
    let m := { Machine.bare with disk := ⟨[(["config.yaml"], .file text.toUTF8)], []⟩ }
    let failed := (s.runLine "analyze --file snippet --config-path typo.yaml").run m
    let later := "analyze --file snippet --model nope"
    failed.1.1 = .error (.configurationFile "typo.yaml" "file not found") ∧
      ((failed.1.2.runLine later).run failed.2).1.1 =
        .error (.configurationFile "typo.yaml" "file not found") ∧
      ((s.runLine later).run failed.2).1.1 = .error (.configuration "Unknown model 'nope'"
        (some "models") (some "Available models: m")) := by
  intro s text m failed later
  have hline : spelled? "analyze --file snippet --config-path typo.yaml" = some ⟨some "typo.yaml",
      false, 0, some (.review ⟨.analyze, "snippet", none, none, none, none⟩)⟩ := by decide +kernel
  have hlater : spelled? later = some ⟨none, false, 0,
      some (.review ⟨.analyze, "snippet", none, none, some "nope", none⟩)⟩ := by decide +kernel
  have habsent : m.disk.exists? "typo.yaml" = false := Disk.exists?_of_target (by decide)
  have hturned : s.turnedTo "typo.yaml" = "typo.yaml" := if_neg (by decide +kernel)
  have hload := load_of_absent habsent
  rw [← hturned] at hload
  obtain ⟨hfailed, hdisk⟩ := runLine_of_unloaded rfl hline rfl rfl hload
  rw [hturned] at hfailed
  have hdisk : failed.2.disk = m.disk := hdisk
  have hfound (m₁ : Machine) (hdisk : m₁.disk = m.disk) :
      ((s.runLine later).run m₁).1.1 = .error (.configuration "Unknown model 'nope'"
        (some "models") (some "Available models: m")) := by
    have htext : m₁.disk.readText "config.yaml" = .ok text := by
      rw [hdisk]
      exact Disk.readText_of_enter (by decide) rfl (by decide +kernel)
    let config : Config := ⟨"m", [("m", .ofName "" .openai)], .standard, Config.standardTimeout⟩
    have hconfig : Config.parse "config.yaml" text = .ok config := by decide +kernel
    have hunknown : config.normalize.resolve (some "nope") = .error (.configuration
        "Unknown model 'nope'" (some "models") (some "Available models: m")) := by decide +kernel
    obtain ⟨m', hload⟩ := Config.load_of_text htext hconfig (by decide +kernel)
    rw [runLine_of_pathless s hlater rfl rfl]
    exact run_of_unknown (s := s) (c := config.normalize) rfl hload _ _ hunknown
  refine ⟨congrArg Prod.fst hfailed, ?_, hfound _ hdisk⟩
  have hsession : failed.1.2 = { s with configPath := "typo.yaml" } := congrArg Prod.snd hfailed
  have hmissed := load_of_absent (hdisk ▸ habsent)
  rw [hsession, runLine_of_pathless _ hlater rfl rfl]
  exact congrArg Prod.fst
    (run_of_unloaded (s := { s with configPath := "typo.yaml" }) rfl hmissed _ _).1

end Session

end CodeReview

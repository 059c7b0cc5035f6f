import CodeReview.Proofs.Config.Loading
import CodeReview.Proofs.Disk.Parents
import CodeReview.Proofs.Session.Checking
import CodeReview.Proofs.Session.OneLine

/-!
# The same effect

A command that is typed as the one line of a session has the effect of the command that is given at
once: the same files, the same requests, questions, decisions and waits, the same result texts, and
the same failure or success (`Program.SameEffect`).  `typed_sameEffect_iff` says when: always, but
for a review that is given the session's own path in another spelling.  On a machine with nothing on
its disk the two then fail under different paths (`not_sameEffect_emptied`), and on others the
session finds a file where the command finds none (`not_sameEffect_slash`).
-/

namespace CodeReview

open CodeReview.Text CodeReview.CommandLine

variable {m m' : Machine}

/-! ### Reviews that come to nothing -/

namespace Session

variable {s s' : Session} {i : Invocation} {f : Failure}

/-- An order for a review fails as the review does, and leaves the disk that the review left. -/
lemma run_of_review {wait : Bool} (h : (s.review wait i).run m = ((.error f, s'), m'))
    (initPath : String) : ((s.run wait initPath (.review i)).run m).1 = (.error f, s') ∧
      ((s.run wait initPath (.review i)).run m).2.disk = m'.disk := by
  have hcarry : (s.carryOut wait initPath (.review i)).run m = ((.error f, s'), m') :=
    Act.run_bind_of h
  have hrun := s.run_eq_carryOut wait initPath (.review i) m
  rwa [hcarry] at hrun

/-- Opening a desk comes to what loading the configuration comes to, and notes it. -/
lemma openDesk_of_load {r : Except Failure Config} (hdesk : s.desk = none)
    (hload : (Config.load s.configPath).run.run m = (r, m')) : s.openDesk.run m =
      (r.map Desk.ofConfig, m'.note (.loaded s.configPath r.toOption)) := by
  unfold openDesk
  rw [hdesk]
  exact Act.run_bind_of hload

/-- A review without a configuration fails as the configuration does. -/
lemma run_of_unloaded (hdesk : s.desk = none)
    (hload : (Config.load s.configPath).run.run m = (.error f, m')) (wait : Bool)
    (initPath : String) : ((s.run wait initPath (.review i)).run m).1 = (.error f, s) ∧
      ((s.run wait initPath (.review i)).run m).2.disk = m'.disk :=
  run_of_review (Act.run_bind_of (openDesk_of_load hdesk hload)) initPath

/-- A review with a model that the configuration does not have fails because of it. -/
lemma run_of_unknown {c : Config} (hdesk : s.desk = none)
    (hload : (Config.load s.configPath).run.run m = (.ok c, m')) (wait : Bool) (initPath : String)
    (hmodel : c.resolve i.model = .error f) :
    ((s.run wait initPath (.review i)).run m).1.1 = .error f := by
  have hprepare : (i.prepare c).run.run (m'.note (.loaded s.configPath (some c))) =
      (.error f, m'.note (.loaded s.configPath (some c))) := by
    refine Command.run_bind_of_error ?_
    rw [hmodel]
    rfl
  exact congrArg Prod.fst (run_of_review
    ((Act.run_bind_of (openDesk_of_load hdesk hload)).trans (Act.run_bind_of hprepare)) initPath).1

end Session

/-! ### The same effect -/

/-- The event is an effect of a command: no line of the log or drawing, no text in the console or on
standard error, and no reading of a configuration. -/
def Event.isEffect : Event → Bool
  | .logged .. | .drawn _ | .shown _ | .complained _ | .loaded .. => false
  | _ => true

/-- The effects that were noted so far. -/
def Machine.effects (m : Machine) : List Event := m.journal.filter Event.isEffect

/-- The machine with nothing on its disk, on which a variable names this configuration. -/
def Machine.emptied (m : Machine) (own : String) : Machine :=
  { m with
    disk := ⟨[], []⟩
    environment := [(Config.pathVariable, Text.bytes own)]
    console := none }

/-- On the emptied machine the configuration is where the variable says. -/
lemma Machine.location_emptied (m : Machine) {own : String} (h : allBlank own = false) :
    Config.location (m.emptied own) none = own := by
  have hset : (m.emptied own).setting? Config.pathVariable = some own := by
    simp [setting?, emptied, fromUTF8?_bytes]
  have hgiven : (some own).filter (!allBlank ·) = some own :=
    Option.filter_eq_some_iff.mpr ⟨rfl, by rw [h]; rfl⟩
  rw [Config.location, hset, hgiven]

namespace Program

variable {words : List String} {c : Line} {own : String}

/-- On this machine the words, typed in a session, have the effect of the command line: the same
files, the same requests, questions, decisions and waits, the same result texts, and the same
failure or success of the command. -/
structure SameEffect (words : List String) (c : Line) (m : Machine) : Prop where
  disk : ((typed words).run m).2.disk = ((execute c []).run m).2.disk
  effects : ((typed words).run m).2.effects = ((execute c []).run m).2.effects
  result : typedResult words m = ((execute c []).run m).1

/-- What a session tells around a line is no effect. -/
lemma effects_frame (es es' : List Event) (r : Except Failure Unit) :
    (es ++ Session.opening ++ es' ++ Session.report r ++ Session.closing).filter Event.isEffect =
      (es ++ es').filter Event.isEffect := by
  have hopening : Session.opening.filter Event.isEffect = [] := rfl
  have hreport : (Session.report r).filter Event.isEffect = [] := by cases r <;> rfl
  have hclosing : Session.closing.filter Event.isEffect = [] := rfl
  simp only [List.filter_append, hopening, hreport, hclosing, List.append_nil]

/-- Without respelling the effect is the same. -/
lemma sameEffect_of_not_respells (hfeed : ∀ w ∈ words, '\n' ∉ w.toList)
    (hparse : parse words = .ok c) (horder : c.order.isSome = true) (hconsole : m.console = none)
    (hsame : c.respells (Config.location m none) = false) : SameEffect words c m := by
  obtain ⟨r, t, hexecute, hresult, htyped⟩ := typed_frames hfeed hparse horder hconsole
  rw [Line.takenAt_eq_self hsame] at hexecute
  constructor
  · rw [htyped, hexecute]
    rfl
  · rw [htyped, hexecute]
    exact effects_frame _ _ _
  · rw [hresult, hexecute]

/-- A review that is ordered on the command line has the result of running it. -/
lemma execute_review_run {i : Invocation} {r : Except Failure Unit}
    (horder : c.order = some (.review i))
    (hrun : (((sessionOf m c).run c.waitOnRateLimit (Config.location m c.configPath)
      (.review i)).run m).1.1 = r) : ((execute c []).run m).1 = r := by
  rw [execute_run horder]
  exact hrun

/-- Where nothing is on the disk, a review names the configuration that it looked for. -/
lemma execute_of_empty {i : Invocation} (horder : c.order = some (.review i))
    (hempty : m.disk.entries = []) : ∃ reason,
      ((execute c []).run m).1 =
        .error (.configurationFile (Config.location m c.configPath) reason) := by
  obtain ⟨reason, m', hload⟩ := Config.load_of_empty hempty (Config.location m c.configPath)
  exact ⟨reason, execute_review_run horder
    (congrArg Prod.fst (Session.run_of_unloaded (s := sessionOf m c) rfl hload _ _).1)⟩

/-- A review that respells the path of the session, and asks for a model that the configuration at
that path does not have. -/
lemma typedResult_of_unknown {i : Invocation} {config : Config} {f : Failure}
    (hfeed : ∀ w ∈ words, '\n' ∉ w.toList) (hparse : parse words = .ok c)
    (hconsole : m.console = none)
    (hown : Config.location m none = own) (hrespells : c.respells own = true)
    (horder : c.order = some (.review i))
    (hload : (Config.load own).run.run m = (.ok config, m'))
    (hmodel : config.resolve i.model = .error f) : typedResult words m = .error f := by
  have hpath : (sessionOf m (c.takenAt own)).configPath = own := by
    rw [Line.takenAt, if_pos hrespells]
    rfl
  have hrun := execute_review_run (m := m) (c := c.takenAt own) (i := i)
    (by rw [Line.order_takenAt, horder])
    (Session.run_of_unknown (s := sessionOf m (c.takenAt own)) rfl (by rw [hpath]; exact hload) _ _
      hmodel)
  obtain ⟨r, t, hexecute, hresult, -⟩ := typed_frames hfeed hparse (by rw [horder]; rfl) hconsole
  rw [hown] at hexecute
  rw [hexecute] at hrun
  exact hresult.trans hrun

/-- Where a review respells the path, a failure to find the configuration tells which of the two
spellings was used. -/
lemma not_sameEffect_emptied (hfeed : ∀ w ∈ words, '\n' ∉ w.toList) (hparse : parse words = .ok c)
    (hrespells : c.respells own = true) (hown : allBlank own = false) (m : Machine) :
    ¬SameEffect words c (m.emptied own) := by
  intro hsame
  obtain ⟨i, path, horder, hpath, hne⟩ := Line.exists_of_respells hrespells
  obtain ⟨r, t, hexecute, hresult, -⟩ := typed_frames (m := m.emptied own) hfeed hparse
    (by rw [horder]; rfl) rfl
  have htaken : (c.takenAt own).configPath = some own := by rw [Line.takenAt, if_pos hrespells]
  obtain ⟨reason, honce⟩ := execute_of_empty (m := m.emptied own) horder rfl
  obtain ⟨reason', htyped⟩ := execute_of_empty (m := m.emptied own) (c := c.takenAt own) (i := i)
    (by rw [Line.order_takenAt, horder]) rfl
  rw [m.location_emptied hown] at hexecute
  rw [hexecute, htaken] at htyped
  obtain rfl : r = _ := htyped
  rw [hpath] at honce
  have hfailures := hresult.symm.trans (hsame.result.trans honce)
  exact hne (Failure.configurationFile.inj (Except.error.inj hfailures)).1.symm

/-- **A command typed as the one line of a session.**  The session does what the command does, as
the session takes it, and adds nothing to it but a frame; where the console takes no text, it ends
at its first prompt.  On all machines with one configuration path the effect is that of the command
line itself exactly when that does not respell the path. -/
theorem typed_sameEffect_iff (hfeed : ∀ w ∈ words, '\n' ∉ w.toList) (hparse : parse words = .ok c)
    (horder : c.order.isSome = true) :
    (∀ m : Machine, m.console = none →
      let once := (execute (c.takenAt (Config.location m none)) []).run m
      ∃ es, once.2.journal = m.journal ++ es ∧ typedResult words m = once.1 ∧
        (typed words).run m = (.ok (), once.2.withJournal
          (m.journal ++ Session.opening ++ es ++ Session.report once.1 ++ Session.closing))) ∧
    (∀ (m : Machine) (refusal : Refusal), m.console = some refusal →
      (typed words).run m = (.error (.output "<stdout>" refusal.reason),
        m.withJournal (m.journal ++ Session.greeting ::
          if refusal.whenFlushed then [.shown Session.promptText] else []))) ∧
    ∀ m₀ : Machine,
      (∀ m : Machine, m.console = none → Config.location m none = Config.location m₀ none →
        SameEffect words c m) ↔ c.respells (Config.location m₀ none) = false := by
  refine ⟨?_, ?_, ?_⟩
  · intro m hconsole
    obtain ⟨r, t, hexecute, hresult, htyped⟩ := typed_frames hfeed hparse horder hconsole
    rw [hexecute]
    exact ⟨t.events, rfl, hresult, htyped⟩
  · intro m refusal hrefusal
    exact typed_run hfeed (Session.interact_refused _ _ hrefusal)
  · intro m₀
    constructor
    · intro hall
      by_contra hrespells
      rw [Bool.not_eq_false] at hrespells
      have hown := Config.allBlank_location m₀
      have hemptied : SameEffect words c (m₀.emptied (Config.location m₀ none)) :=
        hall _ rfl (m₀.location_emptied hown)
      exact not_sameEffect_emptied hfeed hparse hrespells hown m₀ hemptied
    · intro hsame m hconsole hlocation
      rw [← hlocation] at hsame
      exact sameEffect_of_not_respells hfeed hparse horder hconsole hsame

/-- A conversion with quotes, a backslash and an empty word, and a configuration that is not the
session's. -/
theorem sameEffect_conversion :
    let words := ["convert-language", "--file", "a \"b\" \\", "--to-language", "",
      "--wait-on-rate-limit", "--config-path", "other.yaml"]
    let c : Line := ⟨some "other.yaml", true, 0, some (.review
      ⟨.convertLanguage, "a \"b\" \\", none, some "", none, none⟩)⟩
    let m : Machine := { Machine.bare with
      environment := [(Config.pathVariable, Text.bytes "own.yaml")] }
    (∀ w ∈ words, '\n' ∉ w.toList) ∧ parse words = .ok c ∧ c.order.isSome = true ∧
      SameEffect words c m := by
  intro words c m
  have hfeed : ∀ w ∈ words, '\n' ∉ w.toList := by decide +kernel
  have hparse : parse words = .ok c := by decide +kernel
  have hsame : c.respells (Config.location m none) = false := by decide +kernel
  have hiff := (typed_sameEffect_iff hfeed hparse rfl).2.2 m
  exact ⟨hfeed, hparse, rfl, hiff.mpr hsame m rfl rfl⟩

/-- **The session's own configuration with a slash behind it** names no file, and a review that is
given it fails; the session takes it for its own path, finds the file, and fails because of the
model. -/
theorem not_sameEffect_slash :
    let words :=
      ["analyze", "--file", "snippet", "--model", "nope", "--config-path", "config.yaml/"]
    let c : Line := ⟨some "config.yaml/", false, 0, some (.review
      ⟨.analyze, "snippet", none, none, some "nope", none⟩)⟩
    let text := "default_model: m\nmodels:\n  m:\n    provider: openai\n"
    let m : Machine := { Machine.bare with disk := ⟨[(["config.yaml"], .file text.toUTF8)], []⟩ }
    parse words = .ok c ∧
      ((execute c []).run m).1 = .error (.configurationFile "config.yaml/" "file not found") ∧
      typedResult words m = .error (.configuration "Unknown model 'nope'" (some "models")
        (some "Available models: m")) ∧
      ¬SameEffect words c m := by
  intro words c text m
  have hparse : parse words = .ok c := by decide +kernel
  have htext : m.disk.readText "config.yaml" = .ok text :=
    Disk.readText_of_enter (by decide) rfl (by decide +kernel)
  have habsent : m.disk.exists? "config.yaml/" = false :=
    Disk.exists?_of_namesDirectory (by decide) (by decide +kernel)
  have honce : ((execute c []).run m).1 =
      .error (.configurationFile "config.yaml/" "file not found") :=
    execute_review_run rfl (congrArg Prod.fst (Session.run_of_unloaded (s := sessionOf m c) rfl
      (Command.run_bind_of_error (Config.read_of_absent habsent).run_eq) _ _).1)
  have hown : Config.location m none = "config.yaml" := by
    have hexists : m.disk.exists? Config.standardName = true := Disk.exists?_of_readText htext
    have hset : m.setting? Config.pathVariable = none := rfl
    rw [Config.location, hset, hexists]
    rfl
  have hconfig : Config.parse "config.yaml" text =
      .ok ⟨"m", [("m", .ofName "" .openai)], .standard, Config.standardTimeout⟩ := by
    decide +kernel
  obtain ⟨m', hload⟩ := Config.load_of_text htext hconfig (by decide +kernel)
  have htyped : typedResult words m = .error (.configuration "Unknown model 'nope'" (some "models")
      (some "Available models: m")) :=
    typedResult_of_unknown (by decide +kernel) hparse rfl hown (by decide +kernel) rfl hload
      (by decide +kernel)
  refine ⟨hparse, honce, htyped, ?_⟩
  intro hsame
  have hresult := hsame.result
  rw [honce, htyped] at hresult
  cases hresult

end Program

end CodeReview

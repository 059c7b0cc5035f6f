import CodeReview.Proofs.Config.Loading
import CodeReview.Proofs.Disk.Parents
import CodeReview.Proofs.Session.Checking

/-!
# The sample as a configuration file

`init --write-sample` writes the sample to a path at which nothing is, and then reads what it wrote.
The sample is in YAML whatever the path is, but the format in which a configuration is read
follows from the extension of its path.  So the sample serves as a configuration exactly at the paths
that do not end in `.toml`, in any letter case, provided that it can be written there at all
(`Config.serves_iff`).
-/

namespace CodeReview.Config

/-! ### The text of the sample -/

/-- A text and its characters. -/
structure Spelling (text : String) where
  chars : List Char
  toList_eq : text.toList = chars

namespace Spelling

variable {a b : String}

/-- A literal is spelled as it stands there.  Its bytes need not be read for that. -/
def literal {chars : List Char} : Spelling (String.ofList chars) := ⟨chars, String.toList_ofList⟩

/-- One text behind the other. -/
def append (x : Spelling a) (y : Spelling b) : Spelling (a ++ b) :=
  ⟨x.chars ++ y.chars, by rw [String.toList_append, x.toList_eq, y.toList_eq]⟩

end Spelling

/-- The characters of the sample, line by line. -/
def sampleSpelling : Spelling sample := by
  delta sample
  repeat refine Spelling.append ?_ Spelling.literal
  exact Spelling.literal

/-- What was read is a configuration that keeps all rules. -/
def isSound : Except Complaint Config → Bool
  | .ok c => c.normalize.problems.isEmpty
  | .error _ => false

/-- What is sound is a configuration without problems. -/
lemma exists_of_isSound {r : Except Complaint Config} (h : isSound r = true) :
    ∃ c, r = .ok c ∧ c.normalize.problems = [] := by
  cases r with
  | error e => cases h
  | ok c => exact ⟨c, rfl, List.isEmpty_iff.mp h⟩

/-- **The sample is a configuration in YAML that keeps all rules.** -/
lemma parseYaml_sample : ∃ c, parseYaml sample = .ok c ∧ c.normalize.problems = [] := by
  apply exists_of_isSound
  rw [parseYaml, Yaml.Node.parse?, sampleSpelling.toList_eq]
  decide +kernel

/-- What a parser of TOML is given to refuse in the sample. -/
def tomlFault : Malformed := ⟨.toml, sample, .unassigned⟩

/-- The sample is not in TOML: no equals sign follows its first key. -/
lemma parseToml_sample : parseToml sample = .error .unassigned := by
  have hnone : parseToml? sample = none := by
    rw [parseToml?, Toml.parse?, Toml.charsOf, sampleSpelling.toList_eq]
    decide +kernel
  have hstops : Toml.stopsAtKey sample = true := by
    rw [Toml.stopsAtKey, Toml.charsOf, sampleSpelling.toList_eq]
    decide +kernel
  rw [parseToml, hnone, hstops]
  rfl

/-- At a path that ends in `.toml` the sample is refused, -/
lemma parse_sample_of_toml {path : String} (h : isToml path = true) :
    parse path sample = .error tomlFault := by
  rw [parse, if_pos h, parseToml_sample]
  rfl

/-- and at every other path it is read. -/
lemma parse_sample_of_not_toml {path : String} (h : isToml path = false) :
    ∃ c, parse path sample = .ok c ∧ c.normalize.problems = [] := by
  obtain ⟨c, hread, hproblems⟩ := parseYaml_sample
  refine ⟨c, ?_, hproblems⟩
  rw [parse, if_neg (by simp [h]), hread]
  rfl

/-! ### Writing the sample -/

variable {m : Machine} {path : String}

/-- What is told of a sample that was written. -/
def written (path : String) : Event := .logged .info ("✅ Created sample config at: " ++ path)

/-- The machine after the sample was stored at a path. -/
def stored (m : Machine) (path : String) : Machine :=
  { m with disk := (m.disk.store path sample).2 }

/-- Storing the sample, as the command does it. -/
def storeSample (path : String) : Act (Except DiskFault Unit) :=
  modifyGet fun m =>
    let (result, disk) := m.disk.store path sample
    (result, { m with disk })

/-- Storing the sample changes the disk and nothing else. -/
lemma storeSample_run (path : String) (m : Machine) :
    (storeSample path).run m = ((m.disk.store path sample).1, stored m path) := rfl

/-- Where nothing is, the sample is stored, and this is told if it succeeds. -/
lemma createSample_run (habsent : m.disk.exists? path = false) :
    (createSample path).run.run m =
      match (m.disk.store path sample).1 with
      | .error e => (.error (.configurationFile path e.message), stored m path)
      | .ok () => (.ok true, (stored m path).note (written path)) := by
  have hget : (get : Command Machine).run.run m = (.ok m, m) := rfl
  have hstore := Command.run_orFail (storeSample path)
    (fun e => Failure.configurationFile path e.message) m
  rw [storeSample_run] at hstore
  unfold createSample
  rw [Command.run_bind_of_ok hget, habsent]
  cases hresult : (m.disk.store path sample).1 with
  | error e =>
      rw [hresult] at hstore
      exact Command.run_bind_of_error hstore
  | ok _ =>
      rw [hresult] at hstore
      exact Command.run_bind_of_ok hstore

/-- Nothing is written where something is. -/
lemma createSample_of_present (h : m.disk.exists? path = true) :
    (createSample path).run.run m = (.ok false, m) := by
  have hget : (get : Command Machine).run.run m = (.ok m, m) := rfl
  unfold createSample
  rw [Command.run_bind_of_ok hget, h]
  rfl

/-- Where the sample can be stored, it is. -/
lemma createSample_of_stored (habsent : m.disk.exists? path = false)
    (hstore : (m.disk.store path sample).1 = .ok ()) :
    (createSample path).run.run m = (.ok true, (stored m path).note (written path)) := by
  rw [createSample_run habsent, hstore]

end CodeReview.Config

namespace CodeReview

/-- The disk with the sample at a path, if it is wanted and nothing is there. -/
def Machine.sampled (m : Machine) (path : String) (writeSample : Bool) : Disk :=
  if writeSample && !m.disk.exists? path then (m.disk.store path Config.sample).2 else m.disk

/-- **`init` stores the sample, if it is wanted and nothing is there, and then examines the
configuration.**  It ends where the sample cannot be stored. -/
lemma Session.init_cases (path : String) (writeSample : Bool) (m : Machine) :
    (∃ e, (writeSample && !m.disk.exists? path) = true ∧
      (m.disk.store path Config.sample).1 = .error e ∧
      (init path writeSample).run.run m = (.error (.configurationFile path e.message),
        Config.stored (m.note starting) path)) ∨
    ∃ es, (∀ e ∈ es, ∃ text, e = .logged .info text) ∧
      (init path writeSample).run.run m =
        (examine path).run.run (m.after ⟨0, es, m.sampled path writeSample⟩) := by
  have hstarting : ∀ e ∈ [starting], ∃ text, e = .logged .info text :=
    List.forall_mem_singleton.mpr ⟨_, rfl⟩
  cases writeSample with
  | false => exact .inr ⟨[starting], hstarting, rfl⟩
  | true =>
      unfold Machine.sampled
      cases hexists : m.disk.exists? path with
      | true =>
          have hsample := Config.createSample_of_present (m := m.note starting) hexists
          exact .inr ⟨[starting], hstarting, init_run_of_sample hsample⟩
      | false =>
          have hsample := Config.createSample_run (m := m.note starting) hexists
          cases hstore : (m.disk.store path Config.sample).1 with
          | error e =>
              have hstored : ((m.note starting).disk.store path Config.sample).1 = .error e := hstore
              rw [hstored] at hsample
              exact .inl ⟨e, rfl, rfl, init_run_of_sample hsample⟩
          | ok _ =>
              have hstored : ((m.note starting).disk.store path Config.sample).1 = .ok () := hstore
              rw [hstored] at hsample
              refine .inr ⟨[starting] ++ ([Config.written path] ++
                [.logged .info "📝 Edit the configuration file to add your models."]), ?_, ?_⟩
              · simp [starting, Config.written]
              · rw [init_run_of_sample hsample]
                unfold Machine.after
                simp only [← List.append_assoc]
                rfl

end CodeReview

namespace CodeReview.Config

variable {m : Machine} {path : String}

/-- **The sample serves at a path**: it is written there, it is then loaded from there as a
configuration that keeps all rules, and `init` succeeds. -/
structure Serves (path : String) (m : Machine) : Prop where
  created : ((createSample path).run.run m).1 = .ok true
  loaded : ∃ c, ((load path).run.run ((createSample path).run.run m).2).1 = .ok c ∧ c.problems = []
  initialized : ((Session.init path true).run.run m).1 = .ok ()

/-- A sample that is stored under another extension than `.toml` serves. -/
lemma serves_of_stored (habsent : m.disk.exists? path = false)
    (hstore : (m.disk.store path sample).1 = .ok ()) (htoml : isToml path = false) :
    Serves path m := by
  obtain ⟨c, hparse, hproblems⟩ := parse_sample_of_not_toml htoml
  -- the text is found again, whatever was told before
  have hloaded (m₁ : Machine) (hdisk : m₁.disk = (stored m path).disk) :
      ((load path).run.run m₁).1 = .ok c.normalize := by
    have htext : m₁.disk.readText path = .ok sample := by
      rw [hdisk]
      exact (Disk.stored_of_store hstore).readText
    obtain ⟨m₂, hload⟩ := load_of_text htext hparse hproblems
    rw [hload]
  have hcreated := createSample_of_stored habsent hstore
  have hcreated' := createSample_of_stored (m := m.note Session.starting) habsent hstore
  refine ⟨by rw [hcreated], ⟨c.normalize, ?_, hproblems⟩, ?_⟩
  · rw [hcreated]
    exact hloaded _ rfl
  · have hloaded' := hloaded ((stored (m.note Session.starting) path).note (written path)) rfl
    rw [Session.init_result_of_created hcreated', hloaded']
    rfl

/-- A sample that is stored under the extension `.toml` does not serve. -/
lemma not_serves_of_toml (habsent : m.disk.exists? path = false)
    (hstore : (m.disk.store path sample).1 = .ok ()) (htoml : isToml path = true) :
    ¬Serves path m := by
  rintro ⟨-, ⟨c, hloaded, -⟩, -⟩
  rw [createSample_of_stored habsent hstore] at hloaded
  obtain ⟨m', hload⟩ := load_of_malformed (m := (stored m path).note (written path))
    (Disk.stored_of_store hstore).readText (parse_sample_of_toml htoml)
  rw [hload] at hloaded
  cases hloaded

/-- **The sample serves exactly at the paths that do not end in `.toml`** and at which it can be
written: the path names a file, and making the directories above it made none there.  Nothing is at
the path, and the directories above it can be made. -/
theorem serves_iff (habsent : m.disk.exists? path = false)
    (hparents : (m.disk.makeParents path).1 = .ok ()) :
    Serves path m ↔ isToml path = false ∧ Path.NamesFile path ∧
      (m.disk.makeParents path).2.isDirectory path = false := by
  rw [← Disk.store_ok_iff sample hparents]
  constructor
  · intro hserves
    cases hstore : (m.disk.store path sample).1 with
    | error e =>
        have hcreated := hserves.created
        rw [createSample_run habsent, hstore] at hcreated
        cases hcreated
    | ok _ =>
        refine ⟨?_, rfl⟩
        by_contra htoml
        exact not_serves_of_toml habsent hstore (by simpa using htoml) hserves
  · rintro ⟨htoml, hstore⟩
    exact serves_of_stored habsent hstore htoml

/-- A path below two directories that are not there yet, and an extension that says nothing. -/
theorem serves_nested : Serves "etc/review/config.toml.bak" .bare := by
  have habsent : Machine.bare.disk.exists? "etc/review/config.toml.bak" = false :=
    Disk.exists?_of_target (by decide)
  have hmade : Machine.bare.disk.makeParents "etc/review/config.toml.bak" =
      (.ok (), ⟨[(["etc", "review"], .directory), (["etc"], .directory)], []⟩) := by
    rw [Disk.makeParents_eq (by decide) (by decide)]
    decide
  have hdirectory : (Machine.bare.disk.makeParents "etc/review/config.toml.bak").2.isDirectory
      "etc/review/config.toml.bak" = false := by
    rw [hmade]
    exact Disk.isDirectory_of_target (by decide)
  exact (serves_iff habsent (by rw [hmade])).mpr ⟨by decide, by decide, hdirectory⟩

/-- **A sample for `config.toml`** is written, and cannot be read. -/
theorem not_serves_toml :
    Machine.bare.disk.exists? "config.toml" = false ∧
      (Machine.bare.disk.makeParents "config.toml").1 = .ok () ∧
      ((createSample "config.toml").run.run .bare).1 = .ok true ∧
      ((load "config.toml").run.run ((createSample "config.toml").run.run .bare).2).1 =
        .error (.configurationFile "config.toml" "expected \x60.\x60, \x60=\x60") ∧
      ¬Serves "config.toml" .bare := by
  have habsent : Machine.bare.disk.exists? "config.toml" = false :=
    Disk.exists?_of_target (by decide)
  have hparents : (Machine.bare.disk.makeParents "config.toml").1 = .ok () := by decide
  have hdirectory : (Machine.bare.disk.makeParents "config.toml").2.isDirectory "config.toml" =
      false := Disk.isDirectory_of_target (by decide)
  have hstore : (Machine.bare.disk.store "config.toml" sample).1 = .ok () :=
    (Disk.store_ok_iff sample hparents).mpr ⟨by decide, hdirectory⟩
  have htoml : isToml "config.toml" = true := by decide
  have hcreated := createSample_of_stored habsent hstore
  obtain ⟨m', hload⟩ := load_of_malformed (m := (stored .bare "config.toml").note
    (written "config.toml")) (Disk.stored_of_store hstore).readText (parse_sample_of_toml htoml)
  have hwords : Machine.bare.wording tomlFault = "expected \x60.\x60, \x60=\x60" := rfl
  refine ⟨habsent, hparents, by rw [hcreated], ?_, not_serves_of_toml habsent hstore htoml⟩
  rw [hcreated, hload, ← hwords]
  rfl

end CodeReview.Config

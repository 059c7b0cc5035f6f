import CodeReview.Proofs.Disk.Tree
import CodeReview.Proofs.Session.Jobs

/-!
# What a run may change on the disk

A job may write one file: the result of a review, where an output was asked for and the model gave a
text, or the sample, where it is wanted and nothing is there (`Job.Entitled`).  Besides, the
directories above that file may be made.  Everything else is to stay as it was (`Job.Framed`).

Every run keeps to that, but for one case (`Program.run_frame`): `init` looks for something at its
path before it makes the directories above it, and where one of those is missing it finds nothing,
also if the path leads back behind that directory to a file.  That file is then overwritten
(`Program.run_overwrites`).  On a disk that is a tree this takes a double dot in the path.
-/

namespace CodeReview

open CodeReview.CommandLine

namespace Job

variable {j : Job} {place : Place} {path text : String}

/-- The text that the model gives to a job, if the job is a review and gets one. -/
def text? (j : Job) : Option String :=
  match j.order with
  | .init _ => none
  | .review i => (j.session.decisive? j.wait i j.machine).bind Submission.text?

/-- The job may write this text to the file at this path. -/
inductive Entitled (j : Job) (path text : String) : Prop where
  /-- The text is what the model gave to a review, and the path that of its result. -/
  | result {i : Invocation} {destination : String} (order : j.order = .review i)
      (output : i.output = some destination)
      (path_eq : path = Delivery.targetPath j.machine destination i.locator i.operation)
      (text_eq : j.text? = some text)
  /-- The text is the sample, and nothing is where the path of `init` leads to. -/
  | sample (order : j.order = .init true) (path_eq : path = j.initPath)
      (text_eq : text = Config.sample)
      (absent : j.machine.disk.get? (j.machine.disk.target path) = none)

/-- All that the job changes is a file that it may write, which has the text then, and directories
above that file which were missing. -/
def Framed (j : Job) : Prop :=
  ∀ place, j.after.disk.get? place ≠ j.machine.disk.get? place → ∃ path text, j.Entitled path text ∧
    ((place = j.machine.disk.target path ∧
        j.after.disk.get? place = some (.file text.toUTF8)) ∨
      (place ∈ j.machine.disk.way path ∧ j.machine.disk.Made j.after.disk place))

/-- The job is to write a sample where something is that it does not find, and storing the sample
changes something. -/
structure Intrudes (j : Job) : Prop where
  order : j.order = .init true
  unseen : j.machine.disk.exists? j.initPath = false
  present : j.machine.disk.get? (j.machine.disk.target j.initPath) ≠ none
  changes : ∃ place, (j.machine.disk.store j.initPath Config.sample).2.get? place ≠
    j.machine.disk.get? place

/-! ### One job -/

/-- What is deposited changes the file that its path leads to, and makes directories above it. -/
lemma after_of_deposit (hdeposit : j.deposit? = some ⟨path, text⟩) :
    j.after.disk = (j.machine.disk.store path text).2 := by
  rw [j.after_disk, hdeposit]
  rfl

/-- What a job that stores a text has changed is the file that it stores, or a directory made on the
way. -/
lemma changed_of_deposit (hdeposit : j.deposit? = some ⟨path, text⟩)
    (hchanged : j.after.disk.get? place ≠ j.machine.disk.get? place) :
    (place = j.machine.disk.target path ∧ j.after.disk.get? place = some (.file text.toUTF8)) ∨
      (place ∈ j.machine.disk.way path ∧ j.machine.disk.Made j.after.disk place) := by
  rw [after_of_deposit hdeposit] at hchanged ⊢
  obtain ⟨hstore, rfl⟩ | hmade := Disk.changed_of_store hchanged
  · exact .inl ⟨rfl, Disk.get?_target_of_store hstore⟩
  · exact .inr hmade

/-- A job without a deposit changes nothing. -/
lemma exists_deposit (hchanged : j.after.disk.get? place ≠ j.machine.disk.get? place) :
    ∃ path text, j.deposit? = some ⟨path, text⟩ := by
  cases hdeposit : j.deposit? with
  | some x => exact ⟨x.path, x.text, rfl⟩
  | none =>
      rw [j.after_disk, hdeposit] at hchanged
      exact absurd rfl hchanged

/-- A job deposits what it may write, unless it is a sample where something is that is not found. -/
lemma entitled_of_deposit (hdeposit : j.deposit? = some ⟨path, text⟩) :
    j.Entitled path text ∨ (j.order = .init true ∧ j.machine.disk.exists? j.initPath = false ∧
      path = j.initPath ∧ text = Config.sample ∧
      j.machine.disk.get? (j.machine.disk.target j.initPath) ≠ none) := by
  unfold deposit? at hdeposit
  cases horder : j.order with
  | review i =>
      rw [horder] at hdeposit
      simp only [Session.deposit?, Delivery.deposit?] at hdeposit
      split at hdeposit
      case h_1 htext houtput =>
        cases hdeposit
        exact .inl (.result horder houtput rfl (by rw [text?, horder]; exact htext))
      case h_2 => cases hdeposit
  | init writeSample =>
      rw [horder] at hdeposit
      simp only [Config.deposit?] at hdeposit
      split_ifs at hdeposit with hwrite
      cases hdeposit
      rw [Bool.and_eq_true, Bool.not_eq_true'] at hwrite
      obtain ⟨rfl, hunseen⟩ := hwrite
      by_cases habsent : j.machine.disk.get? (j.machine.disk.target j.initPath) = none
      · exact .inl (.sample horder rfl rfl habsent)
      · exact .inr ⟨rfl, hunseen, rfl, rfl, habsent⟩

/-- **A job changes what it may change, unless it intrudes.** -/
theorem framed_iff (j : Job) : j.Framed ↔ ¬j.Intrudes := by
  constructor
  · rintro hframed ⟨horder, hunseen, hpresent, place, hchanged⟩
    have hdeposit : j.deposit? = some ⟨j.initPath, Config.sample⟩ := by
      simp [deposit?, horder, Config.deposit?, hunseen]
    rw [← after_of_deposit hdeposit] at hchanged
    obtain ⟨path, text, hentitled, -⟩ := hframed place hchanged
    cases hentitled with
    | result hreview => cases hreview.symm.trans horder
    | sample _ hpath _ habsent => exact hpresent (hpath ▸ habsent)
  · intro hnot place hchanged
    obtain ⟨path, text, hdeposit⟩ := exists_deposit hchanged
    obtain hentitled | ⟨horder, hunseen, rfl, rfl, hpresent⟩ := entitled_of_deposit hdeposit
    · exact ⟨path, text, hentitled, changed_of_deposit hdeposit hchanged⟩
    · rw [after_of_deposit hdeposit] at hchanged
      exact absurd ⟨horder, hunseen, hpresent, place, hchanged⟩ hnot

/-- On a tree only a path with a double dot leads to something that is not found. -/
lemma not_intrudes_of_straight (htree : j.machine.disk.IsTree)
    (hstraight : ".." ∉ Path.parts j.initPath) : ¬j.Intrudes := by
  rintro ⟨-, hunseen, hpresent, place, hchanged⟩
  obtain ⟨hstore, -⟩ | ⟨hway, hmade⟩ := Disk.changed_of_store hchanged
  · rw [htree.exists? hstraight hstore hpresent] at hunseen
    cases hunseen
  · -- all that the path leads past is there already
    have hthere := htree.directory_of_mem_way hstraight hpresent hway
    rw [hmade.absent] at hthere
    cases hthere

end Job

/-! ### Runs -/

namespace Job.Follows

variable {d d' : Disk} {js : List Job} {j : Job}

/-- Jobs keep a tree a tree. -/
lemma isTree (h : Follows d js d') (htree : d.IsTree) (hj : j ∈ js) : j.machine.disk.IsTree := by
  induction js generalizing d with
  | nil => cases hj
  | cons first rest ih =>
      obtain ⟨rfl, hrest⟩ := h
      cases hj with
      | head => exact htree
      | tail _ hj =>
          refine ih hrest ?_ hj
          rw [first.after_disk]
          cases first.deposit? with
          | none => exact htree
          | some x => exact htree.store x.path x.text

end Job.Follows

namespace Program

/-- **What a run changes.**  The disk after a run is what its jobs make of it, one after the other,
so that whatever has changed was changed by one of them.  A job changes what it may change, and
nothing else, unless it intrudes; and on a disk that is a tree, no job intrudes whose path is without
double dots. -/
theorem run_frame (words : List String) (lines : List (List UInt8)) (m : Machine) :
    let js := jobs words lines m
    let after := ((run words lines).run m).2.disk
    Job.Follows m.disk js after ∧
      (∀ place, after.get? place ≠ m.disk.get? place →
        ∃ j ∈ js, j.after.disk.get? place ≠ j.machine.disk.get? place) ∧
      (∀ j ∈ js, j.Framed ↔ ¬j.Intrudes) ∧
      (m.disk.IsTree → ∀ j ∈ js, ".." ∉ Path.parts j.initPath → ¬j.Intrudes) := by
  intro js after
  have hfollows := follows_jobs words lines m
  refine ⟨hfollows, fun _ => hfollows.exists_changed, fun j _ => j.framed_iff, ?_⟩
  intro htree j hj hstraight
  exact Job.not_intrudes_of_straight (hfollows.isTree htree hj) hstraight

/-- **A sample that overwrites a file.**  The directory `x` is missing, and so `init` finds nothing
at `x/../config.yaml`; it makes `x`, and the path then leads to the file beside it. -/
theorem run_overwrites :
    let words := ["init", "--write-sample", "--config-path", "x/../config.yaml"]
    let old := Entry.file "default_model: m\n".toUTF8
    let m : Machine := { Machine.bare with disk := ⟨[(["config.yaml"], old)], []⟩ }
    let after := ((run words []).run m).2.disk
    m.disk.IsTree ∧ m.disk.get? ["config.yaml"] = some old ∧
      after.get? ["config.yaml"] = some (.file Config.sample.toUTF8) ∧
      after.get? ["config.yaml"] ≠ some old ∧
      ∃ j ∈ jobs words [] m, ¬j.Framed := by
  intro words old m after
  let path := "x/../config.yaml"
  let j : Job := ⟨.start path false, false, path, .init true, m⟩
  have hparse : parse words = .ok ⟨some path, false, 0, some (.init true)⟩ := by decide
  have hjobs : jobs words [] m = [j] := by
    unfold jobs
    rw [hparse]
    rfl
  have htree : m.disk.IsTree := by
    refine ⟨rfl, fun place hroot hplace => ?_⟩
    by_cases hconfig : place = ["config.yaml"]
    · rw [hconfig]
      rfl
    · have hne : (place == ["config.yaml"]) = false := beq_eq_false_iff_ne.mpr hconfig
      simp [m, Disk.get?, hroot, List.lookup_cons, hne] at hplace
  have hblocked : m.disk.enter (m.disk.start path) (Path.parts path).dropLast =
      .error .notFound := by
    decide
  have hunseen : m.disk.exists? path = false := Disk.exists?_of_enter (by decide) hblocked
  have hmade : m.disk.makeParents path =
      (.ok (), ⟨[(["x"], .directory), (["config.yaml"], old)], []⟩) := by
    rw [Disk.makeParents_eq (by decide) (by decide)]
    decide +kernel
  have hdirectory : (m.disk.makeParents path).2.isDirectory path = false := by
    rw [hmade]
    exact Disk.isDirectory_of_target (by decide)
  have hstore : (m.disk.store path Config.sample).1 = .ok () :=
    (Disk.store_ok_iff Config.sample (by rw [hmade])).mpr ⟨by decide, hdirectory⟩
  have htarget : m.disk.target path = ["config.yaml"] := by decide
  have hdeposit : j.deposit? = some ⟨path, Config.sample⟩ := by
    simp [j, Job.deposit?, Config.deposit?, hunseen]
  have hafter : after = j.after.disk := by
    have hfollows := follows_jobs words [] m
    rw [hjobs] at hfollows
    exact hfollows.2
  have hnew : after.get? ["config.yaml"] = some (.file Config.sample.toUTF8) := by
    rw [hafter, Job.after_of_deposit hdeposit, ← htarget]
    exact Disk.get?_target_of_store hstore
  have hold : m.disk.get? ["config.yaml"] = some old := by simp [m, Disk.get?]
  have hother : after.get? ["config.yaml"] ≠ some old := by
    intro heq
    rw [hnew] at heq
    have htext := congrArg String.fromUTF8? (Entry.file.inj (Option.some.inj heq))
    rw [Text.fromUTF8?_toUTF8, Text.fromUTF8?_toUTF8] at htext
    have hchars := congrArg String.toList (Option.some.inj htext)
    rw [Config.sampleSpelling.toList_eq] at hchars
    revert hchars
    decide
  refine ⟨htree, hold, hnew, hother, j, by rw [hjobs]; exact List.mem_singleton_self j, ?_⟩
  rw [Job.framed_iff, not_not]
  refine ⟨rfl, hunseen, ?_, ["config.yaml"], ?_⟩
  · rw [htarget, hold]
    exact Option.some_ne_none old
  · rwa [← Job.after_of_deposit hdeposit, ← hafter, hold]

end Program

end CodeReview

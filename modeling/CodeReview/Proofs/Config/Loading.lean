import CodeReview.Config.File
import CodeReview.Proofs.Disk.Store
import CodeReview.Proofs.Machine.Licensed

/-!
# Looking for a configuration

The path at which a configuration is looked for is never blank, and what comes of reading it there
is told by the disk alone: nothing is there, what is there cannot be read, the text is refused, or it
is a configuration.  The first three are reported under the very path that was looked for, and a text
that is refused in the words of its parser.
-/

namespace CodeReview

open CodeReview.Text

namespace Disk

variable {d : Disk} {path : String}

/-- Where no entries are, no path names a file. -/
lemma readText_of_empty (h : d.entries = []) (path : String) : ∃ e, d.readText path = .error e := by
  unfold readText readBytes find
  cases d.locate path with
  | error e => exact ⟨e, rfl⟩
  | ok place =>
      by_cases hroot : place = []
      · exact ⟨.isDirectory, by simp [get?, hroot]⟩
      · exact ⟨.notFound, by simp [get?, hroot, h]⟩

end Disk

namespace Config

/-! ### The path -/

/-- A name that is not blank makes a path that is not blank. -/
lemma allBlank_join {directory name : String} (h : allBlank name = false) :
    allBlank (Path.join directory name) = false := by
  unfold allBlank at h ⊢
  unfold Path.join
  split_ifs <;> simp [String.toList_append, List.all_append, h]

/-- The name that is looked for where none is given is not blank. -/
lemma allBlank_standardName : allBlank standardName = false := by decide +kernel

/-- A path that is not blank where it is given is not blank where it is not, either. -/
lemma allBlank_getD {path : Option String} (h : ∀ p ∈ path, allBlank p = false) :
    allBlank (path.getD standardName) = false := by
  cases path with
  | none => exact allBlank_standardName
  | some p => exact h p rfl

/-- The path of a configuration that is not given is not blank. -/
lemma allBlank_location (m : Machine) : allBlank (location m none) = false := by
  unfold location
  dsimp only
  split
  case h_1 path hset => simpa using (Option.filter_eq_some_iff.mp hset).2
  case h_2 =>
    split_ifs
    · exact allBlank_standardName
    · refine allBlank_getD fun path hpath => ?_
      obtain ⟨hhome, -⟩ := Option.filter_eq_some_iff.mp (Option.mem_def.mp hpath)
      obtain ⟨home, -, rfl⟩ := Option.map_eq_some_iff.mp hhome
      exact allBlank_join allBlank_standardName

/-! ### Reading and loading -/

open Act Command

variable {m : Machine} {path : String}

/-- Where nothing is at the path, nothing is read and nothing told. -/
lemma read_of_absent (h : m.disk.exists? path = false) : Command.Leaves (read path) m
    (.error (.configurationFile path "file not found")) ⟨0, [], m.disk⟩ := by
  unfold read
  refine Command.leaves_get_bind ?_ fun _ _ => rfl
  rw [h]
  exact (leaves_throw _ m).bind_error

/-- What is told before the text of a configuration is read. -/
def loading (path : String) : Event := .logged .info ("📋 Loading config from: " ++ path)

/-- Reading a text leaves nothing behind. -/
lemma leaves_readText {r : Except DiskFault String} (h : m.disk.readText path = r)
    (events : List Event) : Act.Leaves (do pure ((← get).disk.readText path))
      (m.after ⟨0, events, m.disk⟩) r ⟨0, [], m.disk⟩ := by
  refine Act.leaves_get_bind ?_ fun _ _ => rfl
  rw [← h]
  exact Act.leaves_pure _ _

/-- What cannot be read is reported in the words of the disk, under the path that was looked for. -/
lemma read_of_fault {e : DiskFault} (hexists : m.disk.exists? path = true)
    (h : m.disk.readText path = .error e) : Command.Leaves (read path) m
      (.error (.configurationFile path e.message)) (.andThen ⟨0, [loading path], m.disk⟩
        ⟨0, [], m.disk⟩) := by
  unfold read
  refine Command.leaves_get_bind ?_ fun _ _ => rfl
  rw [hexists]
  exact (leaves_lift (leaves_note _ m)).bind
    (leaves_orFail_error (leaves_readText h _) _).bind_error

/-- What is read as a configuration is normalized. -/
lemma read_of_text {text : String} {c : Config} (h : m.disk.readText path = .ok text)
    (hparse : parse path text = .ok c) : Command.Leaves (read path) m (.ok c.normalize)
      (.andThen ⟨0, [loading path], m.disk⟩ (.andThen ⟨0, [], m.disk⟩ ⟨0, [], m.disk⟩)) := by
  unfold read
  refine Command.leaves_get_bind ?_ fun _ _ => rfl
  rw [Disk.exists?_of_readText h]
  refine (leaves_lift (leaves_note _ m)).bind ((leaves_orFail_ok (leaves_readText h _) _).bind ?_)
  rw [hparse]
  exact Command.leaves_pure _ _

/-- A text that is refused is reported in the words of its parser, under the path that was looked
for. -/
lemma read_of_malformed {text : String} {e : Malformed} (h : m.disk.readText path = .ok text)
    (hparse : parse path text = .error e) : Command.Leaves (read path) m
      (.error (.configurationFile path (m.wording e)))
      (.andThen ⟨0, [loading path], m.disk⟩ (.andThen ⟨0, [], m.disk⟩ ⟨0, [], m.disk⟩)) := by
  unfold read
  refine Command.leaves_get_bind ?_ fun _ _ => rfl
  rw [Disk.exists?_of_readText h]
  refine (leaves_lift (leaves_note _ m)).bind ((leaves_orFail_ok (leaves_readText h _) _).bind ?_)
  rw [hparse]
  exact Command.leaves_throw _ _

/-- A configuration that is not there is reported under the path at which it was looked for. -/
lemma load_of_empty (h : m.disk.entries = []) (path : String) :
    ∃ reason m', (load path).run.run m = (.error (.configurationFile path reason), m') := by
  cases hexists : m.disk.exists? path with
  | false => exact ⟨_, _, run_bind_of_error (read_of_absent hexists).run_eq⟩
  | true =>
      obtain ⟨e, he⟩ := Disk.readText_of_empty h path
      exact ⟨_, _, run_bind_of_error (read_of_fault hexists he).run_eq⟩

/-- A configuration that keeps all rules is loaded. -/
lemma load_of_text {text : String} {c : Config} (h : m.disk.readText path = .ok text)
    (hparse : parse path text = .ok c) (hproblems : c.normalize.problems = []) :
    ∃ m', (load path).run.run m = (.ok c.normalize, m') := by
  unfold load
  rw [run_bind_of_ok (read_of_text h hparse).run_eq, hproblems]
  exact ⟨_, rfl⟩

/-- A text that is refused fails to load as it fails to be read. -/
lemma load_of_malformed {text : String} {e : Malformed} (h : m.disk.readText path = .ok text)
    (hparse : parse path text = .error e) :
    ∃ m', (load path).run.run m = (.error (.configurationFile path (m.wording e)), m') :=
  ⟨_, run_bind_of_error (read_of_malformed h hparse).run_eq⟩

end Config

end CodeReview

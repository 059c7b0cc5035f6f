import CodeReview.Proofs.Config.Order
import CodeReview.Proofs.Config.SampleFile
import CodeReview.Proofs.Model.Unasked
import CodeReview.Proofs.Session.Acceptance

/-!
# Keys that are missing

`init` looks at the key variables of a configuration, and asking a model looks at one of them again,
much later and in another place.  Both see the same: the warnings of `init` are about the variables
with which a model would be refused for want of a key, each of them once and in rising order
(`Config.keyWarnings_missing`).

The warnings that `init` shows are those, with a line above them that counts them; nothing else that
it tells is a warning (`Session.warnings_init`).  They are about what is at the path in the end, the
sample included if it was just written there.
-/

namespace CodeReview

open CodeReview.Text

/-! ### The names of the variables -/

namespace Config

variable {t : String} {c : Config}

/-- The names of variables that are listed are those of the models. -/
lemma mem_keyNames : t ∈ c.keyNames ↔ ∃ p ∈ c.models, p.2.keyName = t := by
  unfold keyNames
  induction c.models with
  | nil => simp
  | cons p rest ih =>
      rw [List.map_cons, List.foldr_cons, mem_insertName, ih, List.exists_mem_cons_iff, eq_comm]

/-- The names of variables are listed in rising order, so that none is there twice. -/
lemma pairwise_keyNames (c : Config) : c.keyNames.Pairwise (· < ·) := by
  unfold keyNames
  induction c.models with
  | nil => exact List.Pairwise.nil
  | cons p rest ih => exact pairwise_insertName ih _

/-! ### The warnings -/

variable {setting? : String → Option String}

/-- The variables that have no value. -/
def missingNames (setting? : String → Option String) (c : Config) : List String :=
  c.keyNames.filter fun name => allBlank ((setting? name).getD "")

/-- A model has no key where its variable has no value. -/
lemma key_eq_error_iff_blank (m : Model) (value? : Option String) :
    m.key value? = .error m.keyFault ↔ allBlank (value?.getD "") = true := by
  rw [Model.key_eq_error_iff]
  cases value? with
  | none => exact iff_of_true nofun rfl
  | some value => simp

/-- **The variables without a value are those with which a model has no key.** -/
lemma mem_missingNames : t ∈ missingNames setting? c ↔
    ∃ p ∈ c.models, p.2.keyName = t ∧ p.2.key (setting? t) = .error p.2.keyFault := by
  simp only [missingNames, List.mem_filter, mem_keyNames, key_eq_error_iff_blank]
  exact ⟨fun ⟨⟨p, hp, hname⟩, hblank⟩ => ⟨p, hp, hname, hblank⟩,
    fun ⟨p, hp, hname, hblank⟩ => ⟨⟨p, hp, hname⟩, hblank⟩⟩

/-- No variable is missing where every model finds its key. -/
lemma missingNames_eq_nil_iff : missingNames setting? c = [] ↔
    ∀ p ∈ c.models, ∃ key, p.2.key (setting? p.2.keyName) = .ok key := by
  rw [List.eq_nil_iff_forall_not_mem]
  constructor
  · intro hnone p hp
    refine (p.2.key_cases _).resolve_right fun hkey => ?_
    exact hnone p.2.keyName (mem_missingNames.mpr ⟨p, hp, rfl, hkey⟩)
  · rintro hkeys name hname
    obtain ⟨p, hp, rfl, hkey⟩ := mem_missingNames.mp hname
    obtain ⟨key, hok⟩ := hkeys p hp
    rw [hok] at hkey
    cases hkey

/-! ### What is shown of them -/

/-- The warnings of a verdict as they stand in the log, below a line that counts them. -/
def announced (warnings : List String) : List String :=
  if warnings.isEmpty then []
  else ("⚠️ " ++ toString warnings.length ++ " warnings found") :: warnings.map ("   ⚠️ " ++ ·)

/-- Nothing is announced where there are no warnings. -/
lemma announced_eq_nil_iff {warnings : List String} : announced warnings = [] ↔ warnings = [] := by
  cases warnings <;> simp [announced]

end Config

/-- The text of a warning in the log, if that is what happened. -/
def Event.warning? : Event → Option String
  | .logged .warn text => some text
  | _ => none

/-- The warnings that a command adds to the log. -/
def Command.warnings {α : Type} (c : Command α) (m : Machine) : List String :=
  ((c.run.run m).2.journal.drop m.journal.length).filterMap Event.warning?

namespace Act

/-- An event is noted first. -/
lemma leaves_note_then {α : Type} {act : Act α} {m : Machine} {e : Event} {a : α}
    {es : List Event} (h : act.Leaves (m.after ⟨0, [e], m.disk⟩) a ⟨0, es, m.disk⟩) :
    (note e >>= fun _ => act).Leaves m a ⟨0, e :: es, m.disk⟩ :=
  (leaves_note e m).bind (f := fun _ => act) h

/-- One after the other, events are noted. -/
lemma leaves_forM_note {α : Type} (event : α → Event) (as : List α) (m : Machine) :
    (as.forM fun a => note (event a)).Leaves m () ⟨0, as.map event, m.disk⟩ := by
  induction as generalizing m with
  | nil => exact leaves_pure () m
  | cons a rest ih => exact leaves_note_then (ih _)

end Act

namespace Config

/-- What a verdict tells. -/
def Verdict.lines (v : Verdict) : List Event :=
  [if v.isValid then .logged .info "✅ Validation passed"
    else .logged .error ("❌ Validation failed with " ++ toString v.problems.length ++ " errors")] ++
  (if v.warnings.isEmpty then []
    else [.logged .warn ("⚠️ " ++ toString v.warnings.length ++ " warnings found")]) ++
  v.problems.map (fun s => .logged .error ("   ❌ " ++ s)) ++
  v.warnings.map fun s => .logged .warn ("   ⚠️ " ++ s)

/-- The report of a verdict writes its lines to the log, and does nothing else. -/
lemma report_leaves (v : Verdict) (m : Machine) : v.report.Leaves m () ⟨0, v.lines, m.disk⟩ := by
  have hlines (m : Machine) : Act.Leaves (do
      v.problems.forM fun s => Act.log .error ("   ❌ " ++ s)
      v.warnings.forM fun s => Act.log .warn ("   ⚠️ " ++ s)) m () ⟨0,
        v.problems.map (fun s => .logged .error ("   ❌ " ++ s)) ++
          v.warnings.map fun s => .logged .warn ("   ⚠️ " ++ s), m.disk⟩ :=
    (Act.leaves_forM_note (fun s => .logged .error ("   ❌ " ++ s)) v.problems m).bind
      (f := fun _ => v.warnings.forM fun s => Act.log .warn ("   ⚠️ " ++ s))
      (Act.leaves_forM_note (fun s => .logged .warn ("   ⚠️ " ++ s)) v.warnings _)
  unfold Verdict.report Verdict.lines
  cases v.isValid with
  | true =>
      cases v.warnings.isEmpty with
      | true => exact Act.leaves_note_then (hlines _)
      | false => exact Act.leaves_note_then (Act.leaves_note_then (hlines _))
  | false =>
      cases v.warnings.isEmpty with
      | true => exact Act.leaves_note_then (hlines _)
      | false => exact Act.leaves_note_then (Act.leaves_note_then (hlines _))

/-- **The warnings that a verdict tells are its own**, with their number. -/
lemma filterMap_lines (v : Verdict) : v.lines.filterMap Event.warning? = announced v.warnings := by
  have hproblems : (v.problems.map fun s => Event.logged .error ("   ❌ " ++ s)).filterMap
      Event.warning? = [] := by
    rw [List.filterMap_map, List.filterMap_eq_nil_iff]
    exact fun _ _ => rfl
  have hwarnings : (v.warnings.map fun s => Event.logged .warn ("   ⚠️ " ++ s)).filterMap
      Event.warning? = v.warnings.map ("   ⚠️ " ++ ·) := by
    rw [List.filterMap_map, ← List.filterMap_eq_map]
    rfl
  rw [Verdict.lines, List.filterMap_append, List.filterMap_append, List.filterMap_append, hproblems,
    hwarnings, announced]
  cases hnone : v.warnings with
  | nil => cases v.isValid <;> rfl
  | cons s rest => cases v.isValid <;> rfl

/-- A configuration is read out of a text. -/
lemma exists_readText_of_atPath {m : Machine} {path : String} (h : atPath m path = .ok c) :
    ∃ text, m.disk.readText path = .ok text := by
  unfold atPath at h
  split_ifs at h
  cases htext : m.disk.readText path with
  | error e => rw [htext] at h; cases h
  | ok text => exact ⟨text, rfl⟩

end Config

/-! ### What `init` shows -/

namespace Session

variable {m m' : Machine} {path : String}

/-- The warnings about what a disk has at a path. -/
def announcedAt (m : Machine) (path : String) : List String :=
  match Config.atPath m path with
  | .ok c => Config.announced (c.keyWarnings m.setting?)
  | .error _ => []

/-- **Examining a configuration shows its warnings and no others**, and leaves the disk alone. -/
lemma examine_warnings (path : String) (m : Machine) :
    ∃ es, ((examine path).run.run m).2.journal = m.journal ++ es ∧
      es.filterMap Event.warning? = announcedAt m path ∧
      ((examine path).run.run m).2.disk = m.disk := by
  obtain ⟨r, t, ht, hpermits⟩ :=
    Config.read_within (L := .noting (·.warning? = none)) (fun _ => rfl) path m
  have hresult : Config.atPath m path = r := by
    rw [← Config.read_result, ht.run_eq]
  have hevents : t.events.filterMap Event.warning? = [] :=
    List.filterMap_eq_nil_iff.mpr hpermits.events
  have hdisk : t.disk = m.disk := Eq.symm hpermits.disk
  unfold announcedAt
  rw [hresult]
  cases r with
  | error f =>
      rw [examine_run_of_error ht.run_eq]
      refine ⟨t.events ++ [advice], List.append_assoc .., ?_, hdisk⟩
      rw [List.filterMap_append, hevents]
      rfl
  | ok c =>
      rw [examine_run_of_ok ht.run_eq]
      obtain ⟨_, t', ht', hpermits'⟩ :=
        summarize_within (L := .noting (·.warning? = none)) (fun _ => rfl) c (m.after t)
      have hevents' : t'.events.filterMap Event.warning? = [] :=
        List.filterMap_eq_nil_iff.mpr hpermits'.events
      have hdisk' : t'.disk = t.disk := Eq.symm hpermits'.disk
      dsimp only
      rw [ht'.run_eq, (Config.report_leaves _ _).run_eq]
      refine ⟨t.events ++ t'.events ++ (Config.verdict ((m.after t).after t') c).lines, ?_, ?_,
        hdisk'.trans hdisk⟩
      · simp only [Machine.after, List.append_assoc]
      · rw [List.filterMap_append, List.filterMap_append, hevents, hevents', Config.filterMap_lines]
        rfl

/-- Where the sample could not be stored, there is nothing to warn about. -/
lemma announcedAt_of_unstored {e : DiskFault} (habsent : m.disk.exists? path = false)
    (hstore : (m.disk.store path Config.sample).1 = .error e) :
    announcedAt (Config.stored m path) path = [] := by
  unfold announcedAt
  cases hfound : Config.atPath (Config.stored m path) path with
  | error f => rfl
  | ok c =>
      obtain ⟨text, htext⟩ := Config.exists_readText_of_atPath hfound
      have hok : (m.disk.store path Config.sample).1 = .ok () :=
        Disk.store_ok_of_readText habsent htext
      rw [hok] at hstore
      cases hstore

/-- **The warnings that `init` shows** are about what is at the path in the end. -/
lemma warnings_init (path : String) (writeSample : Bool) (m : Machine) :
    (init path writeSample).warnings m =
      announcedAt { m with disk := ((init path writeSample).run.run m).2.disk } path := by
  rcases init_cases path writeSample m with ⟨e, hwanted, hstore, hrun⟩ | ⟨es, hes, hrun⟩
  · -- the sample could not be stored, and there is nothing to examine
    have habsent : m.disk.exists? path = false := by
      simpa using (Bool.and_eq_true_iff.mp hwanted).2
    have hnone : announcedAt { m with disk := (Config.stored (m.note starting) path).disk } path =
        [] := announcedAt_of_unstored habsent hstore
    have hjournal : (Config.stored (m.note starting) path).journal.drop m.journal.length =
        [starting] := List.drop_left
    rw [Command.warnings, hrun, hnone, hjournal]
    rfl
  · obtain ⟨es', hjournal, hwarnings, hdisk⟩ :=
      examine_warnings path (m.after ⟨0, es, m.sampled path writeSample⟩)
    have hnone : es.filterMap Event.warning? = [] := by
      rw [List.filterMap_eq_nil_iff]
      intro event hevent
      obtain ⟨text, rfl⟩ := hes event hevent
      rfl
    have htold : (m.after ⟨0, es, m.sampled path writeSample⟩).journal = m.journal ++ es := rfl
    rw [Command.warnings, hrun, hjournal, htold, hdisk, List.append_assoc, List.drop_left,
      List.filterMap_append, hnone, hwarnings]
    rfl

end Session

namespace Config

/-- **The missing keys are told as they are found missing later.**  The warnings about a
configuration are one line for each variable with which one of its models has no key, each of them
once and in rising order.  `init` shows those of the configuration that is at the path in the end,
and no other warnings; it shows none exactly if, at whatever time a question is put in this
environment, every model of the configuration has its key. -/
theorem keyWarnings_missing (path : String) (writeSample : Bool) (m later : Machine) (c : Config) :
    (∃ names : List String, c.keyWarnings m.setting? = names.map (· ++ " is not set") ∧
      names.Pairwise (· < ·) ∧
      ∀ name, name ∈ names ↔
        ∃ p ∈ c.models, p.2.keyName = name ∧ p.2.key (m.setting? name) = .error p.2.keyFault) ∧
    match atPath { m with disk := ((Session.init path writeSample).run.run m).2.disk } path with
    | .ok found =>
      (Session.init path writeSample).warnings m = announced (found.keyWarnings m.setting?) ∧
      ((Session.init path writeSample).warnings m = [] ↔ ∀ p ∈ found.models, ∃ key,
        p.2.key ({ later with environment := m.environment }.setting? p.2.keyName) = .ok key)
    | .error _ => (Session.init path writeSample).warnings m = [] := by
  refine ⟨⟨missingNames m.setting? c, rfl, (pairwise_keyNames c).filter _,
    fun _ => mem_missingNames⟩, ?_⟩
  have hshown := Session.warnings_init path writeSample m
  unfold Session.announcedAt at hshown
  split
  · rename_i found hfound
    simp only [hfound] at hshown
    refine ⟨hshown, ?_⟩
    rw [hshown, announced_eq_nil_iff, keyWarnings, List.map_eq_nil_iff]
    exact missingNames_eq_nil_iff
  · rename_i f hfound
    simpa only [hfound] using hshown

end Config

end CodeReview

import CodeReview.Proofs.Config.Order
import CodeReview.Proofs.Session.Acceptance

/-!
# The names of models

A model of a configuration file has a key, and a name if it is given one.  `givenNames?` reads both
off a text and nothing else, so that a name which is left out stays apart from one that is blank.
`nameOf` is the name that such a model has to have: the one that it is given, unless that is blank,
else its key.

The models of a configuration that was loaded have exactly these names (`names_of_load`).  A name
is blank only where the key is blank, too (`allBlank_nameOf`), so that all models have proper names
exactly if the file leaves none `Nameless`: `named_iff`.
-/

namespace CodeReview.Config

open CodeReview.Text CodeReview.Yaml

/-! ### What a file says -/

/-- The name that a model is given. -/
def givenNameOfYaml? (n : Node) : Option (Option String) :=
  n.asMembers?.bind (memberOr? "name" none fun v => v.asText?.map some)

/-- The keys of the models, with the names that they are given. -/
def givenNamesOfYaml? (n : Node) : Option (List (String × Option String)) := do
  let members ← n.asMembers?
  let models ← memberOf? "models" Node.asMembers? members
  models.mapM fun p => (givenNameOfYaml? p.2).map (p.1, ·)

/-- The name that a model is given. -/
def givenNameOfToml? (v : Toml.Value) : Option (Option String) :=
  (fieldsOfToml? ["name", "provider", "max_tokens", "temperature", "api_base", "api_key_env"]
    v).bind (tomlOr? "name" none fun v => (textOfToml? v).map some)

/-- The members of a table. -/
def membersOfToml? : Toml.Value → Option Toml.Members
  | .table _ members => some members
  | _ => none

/-- The keys of the models, with the names that they are given. -/
def givenNamesOfToml? (members : Toml.Members) : Option (List (String × Option String)) := do
  let models ← tomlOf? "models" membersOfToml? members
  models.mapM fun p => (givenNameOfToml? p.2).map (p.1, ·)

/-- The keys of the models in a text, with the names that they are given. -/
def givenNames? (path text : String) : Option (List (String × Option String)) :=
  if isToml path then (Toml.parse? text).bind givenNamesOfToml?
  else (Node.parse? text).bind givenNamesOfYaml?

/-- The name of a model with this key that is given this name. -/
def nameOf (key : String) (given : Option String) : String :=
  (given.filter (!allBlank ·)).getD key

/-- The model under this key is not given a name, or is given a blank one, and the key is no name
either. -/
def Nameless (stated : List (String × Option String)) (key : String) : Prop :=
  allBlank key = true ∧
    ∃ given, stated.reverse.lookup key = some given ∧ ∀ name ∈ given, allBlank name = true

variable {α β γ δ : Type} {key path text : String} {c : Config}
  {m : Model} {models : List (String × Model)} {stated : List (String × Option String)}

/-! ### Lists of models -/

/-- Entries that are changed, in view of their keys, are found changed. -/
lemma lookup_map (f : String → α → β) (l : List (String × α)) (key : String) :
    (l.map fun p => (p.1, f p.1 p.2)).lookup key = (l.lookup key).map (f key) := by
  induction l with
  | nil => rfl
  | cons p rest ih =>
      obtain ⟨k, a⟩ := p
      rw [List.map_cons, lookup_cons_eq, lookup_cons_eq, ih]
      split_ifs with hkey
      · rw [hkey, Option.map_some]
      · rfl

/-- Of models with one key the last is found. -/
lemma lookup_sortModels (models : List (String × Model)) (key : String) :
    (sortModels models).lookup key = models.reverse.lookup key := by
  have hfold : ∀ sorted : List (String × Model),
      (models.foldl (fun sorted p => putModel p.1 p.2 sorted) sorted).lookup key =
        (models.reverse.lookup key).or (sorted.lookup key) := by
    induction models with
    | nil => exact fun _ => rfl
    | cons p rest ih =>
        intro sorted
        rw [List.foldl_cons, ih, lookup_putModel, List.reverse_cons, List.lookup_append,
          Option.or_assoc, lookup_cons_eq]
        split_ifs <;> simp
  rw [sortModels, hfold]
  exact Option.or_none

/-- Two ways to read a list that agree about its items agree about the list. -/
lemma exists_mapM_eq_some {f : α → Option β} {g : α → Option γ} {r : β → δ} {s : γ → δ}
    (h : ∀ x y, f x = some y → ∃ z, g x = some z ∧ r y = s z) {xs : List α} {ys : List β}
    (hys : xs.mapM f = some ys) : ∃ zs, xs.mapM g = some zs ∧ ys.map r = zs.map s := by
  induction xs generalizing ys with
  | nil =>
      cases hys
      exact ⟨[], rfl, rfl⟩
  | cons x xs ih =>
      rw [List.mapM_cons] at hys
      obtain ⟨y, hy, hrest⟩ := Option.bind_eq_some_iff.mp hys
      obtain ⟨ys', hys', hcons⟩ := Option.bind_eq_some_iff.mp hrest
      cases hcons
      obtain ⟨z, hz, hyz⟩ := h x y hy
      obtain ⟨zs, hzs, hmap⟩ := ih hys'
      refine ⟨z :: zs, ?_, ?_⟩
      · rw [List.mapM_cons, hz, hzs]
        rfl
      · rw [List.map_cons, List.map_cons, hyz, hmap]

/-! ### What is read -/

/-- A text that may be left out can be read so that one sees whether it is. -/
lemma exists_given {value : Option α} {read : α → Option String} {name : String}
    (h : value.elim (some "") read = some name) :
    ∃ given, (value.elim (some none) fun v => (read v).map some) = some given ∧
      name = given.getD "" := by
  cases value with
  | none =>
      cases h
      exact ⟨none, rfl, rfl⟩
  | some v =>
      have hread : read v = some name := h
      exact ⟨some name, by rw [Option.elim_some, hread, Option.map_some], rfl⟩

/-- A model has the name that it is given, and a name without characters if it is given none. -/
lemma exists_givenNameOfYaml? {n : Node} {model : Model} (h : modelOfYaml? n = some model) :
    ∃ given, givenNameOfYaml? n = some given ∧ model.name = given.getD "" := by
  obtain ⟨members, hmembers, hrest⟩ := Option.bind_eq_some_iff.mp h
  obtain ⟨name, hname, hrest⟩ := Option.bind_eq_some_iff.mp hrest
  obtain ⟨provider, -, hrest⟩ := Option.bind_eq_some_iff.mp hrest
  obtain ⟨maxTokens, -, hrest⟩ := Option.bind_eq_some_iff.mp hrest
  obtain ⟨temperature, -, hrest⟩ := Option.bind_eq_some_iff.mp hrest
  obtain ⟨apiBase, -, hrest⟩ := Option.bind_eq_some_iff.mp hrest
  obtain ⟨keyVariable, -, hrest⟩ := Option.bind_eq_some_iff.mp hrest
  cases hrest
  obtain ⟨value, hvalue, hread⟩ := Option.bind_eq_some_iff.mp hname
  obtain ⟨given, hgiven, heq⟩ := exists_given hread
  refine ⟨given, ?_, heq⟩
  rw [givenNameOfYaml?, hmembers, Option.bind_some, memberOr?, hvalue, Option.bind_some, hgiven]

/-- Where a table in TOML is a model, the name given to it is read off it as well. -/
lemma exists_givenNameOfToml? {v : Toml.Value} {model : Model} (h : modelOfToml? v = some model) :
    ∃ given, givenNameOfToml? v = some given ∧ model.name = given.getD "" := by
  obtain ⟨members, hmembers, hrest⟩ := Option.bind_eq_some_iff.mp h
  obtain ⟨name, hname, hrest⟩ := Option.bind_eq_some_iff.mp hrest
  obtain ⟨provider, -, hrest⟩ := Option.bind_eq_some_iff.mp hrest
  obtain ⟨maxTokens, -, hrest⟩ := Option.bind_eq_some_iff.mp hrest
  obtain ⟨temperature, -, hrest⟩ := Option.bind_eq_some_iff.mp hrest
  obtain ⟨apiBase, -, hrest⟩ := Option.bind_eq_some_iff.mp hrest
  obtain ⟨keyVariable, -, hrest⟩ := Option.bind_eq_some_iff.mp hrest
  cases hrest
  obtain ⟨given, hgiven, heq⟩ := exists_given hname
  refine ⟨given, ?_, heq⟩
  rw [givenNameOfToml?, hmembers, Option.bind_some, tomlOr?, hgiven]

/-- The models that are read are under the keys that are stated, the last of each, and have the
names that they are given. -/
def Names (models : List (String × Model)) (stated : List (String × Option String)) : Prop :=
  ∀ key, (models.lookup key).map Model.name = (stated.reverse.lookup key).map (·.getD "")

/-- Models that are read one by one, next to their names. -/
lemma exists_names (read : α → Option Model) (givenName? : α → Option (Option String))
    (hread : ∀ x model, read x = some model →
      ∃ given, givenName? x = some given ∧ model.name = given.getD "")
    {entries : List (String × α)} {unsorted : List (String × Model)}
    (h : (entries.mapM fun p => (read p.2).map (p.1, ·)) = some unsorted) :
    ∃ stated, (entries.mapM fun p => (givenName? p.2).map (p.1, ·)) = some stated ∧
      Names (sortModels unsorted) stated := by
  have hentry : ∀ (p : String × α) (q : String × Model), (read p.2).map (p.1, ·) = some q →
      ∃ r : String × Option String, (givenName? p.2).map (p.1, ·) = some r ∧
        (q.1, q.2.name) = (r.1, r.2.getD "") := by
    intro p q hq
    obtain ⟨model, hmodel, rfl⟩ := Option.map_eq_some_iff.mp hq
    obtain ⟨given, hgiven, hname⟩ := hread _ _ hmodel
    exact ⟨(p.1, given), by rw [hgiven, Option.map_some], by rw [hname]⟩
  obtain ⟨stated, hstated, hmap⟩ := exists_mapM_eq_some hentry h
  refine ⟨stated, hstated, fun key => ?_⟩
  have hmodels := lookup_map (fun _ model => model.name) unsorted.reverse key
  have hgivens := lookup_map (fun _ given => given.getD "") stated.reverse key
  rw [lookup_sortModels, ← hmodels, ← hgivens, List.map_reverse, List.map_reverse]
  exact congrArg (fun l => l.reverse.lookup key) hmap

/-- **A text that is read says which models it has, and their names are those that it gives.** -/
lemma exists_givenNames? (h : parse path text = .ok c) :
    ∃ stated, givenNames? path text = some stated ∧ Names c.models stated := by
  unfold givenNames?
  obtain ⟨htoml, hread⟩ | ⟨htoml, n, hnode, hread⟩ := exists_of_parse h
  · obtain ⟨members, v, htext, hlookup, hv⟩ := exists_of_parseToml? hread
    obtain ⟨style, entries, unsorted, rfl, hunsorted, hmodels⟩ := exists_of_modelsOfToml? hv
    obtain ⟨stated, hstated, hnames⟩ :=
      exists_names modelOfToml? givenNameOfToml? (fun _ _ => exists_givenNameOfToml?) hunsorted
    refine ⟨stated, ?_, hmodels ▸ hnames⟩
    rw [if_pos htoml, htext, Option.bind_some, givenNamesOfToml?, tomlOf?, hlookup]
    exact hstated
  · obtain ⟨members, v, hmembers, hmember, hv⟩ := exists_of_ofYaml hread
    obtain ⟨entries, unsorted, hentries, hunsorted, hmodels⟩ := exists_of_modelsOfYaml? hv
    obtain ⟨stated, hstated, hnames⟩ :=
      exists_names modelOfYaml? givenNameOfYaml? (fun _ _ => exists_givenNameOfYaml?) hunsorted
    refine ⟨stated, ?_, hmodels ▸ hnames⟩
    rw [if_neg (by simp [htoml]), hnode, Option.bind_some, givenNamesOfYaml?, hmembers,
      Option.bind_eq_bind, Option.bind_some, memberOf?, hmember, Option.bind_some,
      Option.bind_some, hentries]
    exact hstated

/-! ### What is loaded -/

/-- A model whose name is filled in from its key if it is blank. -/
def filled (key : String) (m : Model) : Model :=
  if allBlank m.name then { m with name := key } else m

/-- Normalizing fills in the models under their keys. -/
lemma model?_normalize (c : Config) (key : String) :
    c.normalize.model? key = (c.model? key).map (filled key) := lookup_map filled c.models key

/-- A name that is left out is filled in just as one without characters. -/
lemma name_filled (key : String) {given : Option String} (hname : m.name = given.getD "") :
    (filled key m).name = nameOf key given := by
  unfold filled nameOf
  cases given with
  | none =>
      have hblank : allBlank m.name = true := by rw [hname]; rfl
      rw [if_pos hblank]
      rfl
  | some name =>
      obtain rfl : m.name = name := hname
      cases hblank : allBlank m.name <;> simp [Option.filter_some, hblank]

/-- The name of a model is blank exactly if its key is, and it is given no name or a blank one. -/
lemma allBlank_nameOf {given : Option String} :
    allBlank (nameOf key given) = true ↔
      allBlank key = true ∧ ∀ name ∈ given, allBlank name = true := by
  unfold nameOf
  cases given with
  | none => simp
  | some name => cases hblank : allBlank name <;> simp [Option.filter_some, hblank]

/-- A configuration that is loaded is the text at its path, with all names filled in. -/
lemma exists_of_load {m : Machine} (h : ((load path).run.run m).1 = .ok c) :
    ∃ text raw, m.disk.readText path = .ok text ∧ parse path text = .ok raw ∧
      c = raw.normalize ∧ c.problems = [] := by
  rw [load_result, atPath] at h
  split_ifs at h with hexists
  · cases htext : m.disk.readText path with
    | error e =>
        rw [htext] at h
        cases h
    | ok text =>
        rw [htext] at h
        dsimp only at h
        cases hparse : parse path text with
        | error e =>
            rw [hparse] at h
            cases h
        | ok raw =>
            rw [hparse] at h
            simp only [Except.bind, judged] at h
            split_ifs at h with hproblems
            cases h
            exact ⟨text, raw, rfl, hparse, rfl, List.isEmpty_iff.mp hproblems⟩
  · cases h

/-- There is no file without a name. -/
lemma ne_empty_of_load {m : Machine} (h : ((load path).run.run m).1 = .ok c) : path ≠ "" := by
  obtain ⟨text, raw, htext, -⟩ := exists_of_load h
  exact Disk.ne_empty_of_readText htext

/-- Whatever else a machine has, it is its disk from which a configuration is loaded. -/
lemma load_of_same_disk {m m' : Machine} (h : ((load path).run.run m).1 = .ok c)
    (hdisk : m'.disk = m.disk) : ∃ m₁, (load path).run.run m' = (.ok c, m₁) := by
  obtain ⟨text, raw, htext, hparse, rfl, hproblems⟩ := exists_of_load h
  exact load_of_text (hdisk ▸ htext) hparse hproblems

/-- **The names of the models that are loaded** are those that the file gives them, and their keys
where it gives none or a blank one. -/
lemma names_of_load {m : Machine} (h : ((load path).run.run m).1 = .ok c) :
    ∃ text stated, m.disk.readText path = .ok text ∧ givenNames? path text = some stated ∧
      ∀ key, (c.model? key).map Model.name = (stated.reverse.lookup key).map (nameOf key) := by
  obtain ⟨text, raw, htext, hparse, rfl, -⟩ := exists_of_load h
  obtain ⟨stated, hstated, hnames⟩ := exists_givenNames? hparse
  refine ⟨text, stated, htext, hstated, fun key => ?_⟩
  have hname := hnames key
  rw [model?_normalize, model?]
  rcases hmodel : raw.models.lookup key with _ | model <;>
    rcases hgiven : stated.reverse.lookup key with _ | given <;>
    rw [hmodel, hgiven] at hname
  · rfl
  · cases hname
  · cases hname
  · exact congrArg some (name_filled key (Option.some.inj hname))

/-! ### Models without a name -/

/-- What is loaded has its models in order. -/
lemma isOrdered_of_load {m : Machine} (h : ((load path).run.run m).1 = .ok c) : c.IsOrdered := by
  obtain ⟨text, raw, -, hparse, rfl, -⟩ := exists_of_load h
  exact isOrdered_of_parse hparse

/-- The models that have no name to go by are those that keep a blank one. -/
lemma nameless_iff (hnames : (c.model? key).map Model.name =
      (stated.reverse.lookup key).map (nameOf key)) :
    Nameless stated key ↔ ∃ model, c.model? key = some model ∧ allBlank model.name = true := by
  unfold Nameless
  rcases hmodel : c.model? key with _ | model <;>
    rcases hgiven : stated.reverse.lookup key with _ | given <;>
    rw [hmodel, hgiven] at hnames
  · simp
  · cases hnames
  · cases hnames
  · have hname : model.name = nameOf key given := Option.some.inj hnames
    simp [hname, allBlank_nameOf]

/-- **All models have names that are not blank exactly if the file leaves none without a name.** -/
lemma named_iff (hordered : c.IsOrdered) (hnames : ∀ key, (c.model? key).map Model.name =
      (stated.reverse.lookup key).map (nameOf key)) :
    (∀ p ∈ c.models, allBlank p.2.name = false) ↔ ∀ key, ¬Nameless stated key := by
  constructor
  · intro hnamed key hnameless
    obtain ⟨model, hmodel, hblank⟩ := (nameless_iff (hnames key)).mp hnameless
    obtain ⟨before, after, hmodels, -⟩ := List.lookup_eq_some_iff.mp hmodel
    have hmem : (key, model) ∈ c.models := by simp [hmodels]
    exact Bool.false_ne_true ((hnamed _ hmem).symm.trans hblank)
  · intro hnamed p hp
    by_contra hblank
    refine hnamed p.1 ((nameless_iff (hnames p.1)).mpr ⟨p.2, hordered.model?_eq hp, ?_⟩)
    rwa [Bool.not_eq_false] at hblank

end CodeReview.Config

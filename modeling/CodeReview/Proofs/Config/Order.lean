import CodeReview.Config.File
import Mathlib.Tactic

/-!
# Models in the order of their keys

A configuration keeps its models in rising order of their keys (`Config.IsOrdered`), so that a key
has one model at most and that model is the one found under it.  Configurations are ordered when
they are made of models, read from a text or given names (`Config.isOrdered_of_parse`), and stay
so when a model is put under a key (`Config.IsOrdered.put`).
-/

namespace CodeReview.Config

variable {key k : String} {m : Model} {models : List (String × Model)} {c : Config}

/-! ### Rising lists -/

section Rising

variable {s t : String} {names : List String}

/-- An insertion adds its name and keeps the others. -/
lemma mem_insertName : t ∈ insertName s names ↔ t = s ∨ t ∈ names := by
  induction names with
  | nil => simp [insertName]
  | cons u rest ih =>
      unfold insertName
      split_ifs with heq hlt
      · simp [heq]
      · simp
      · rw [List.mem_cons, ih, List.mem_cons, or_left_comm]

/-- Rising lists have no repetitions, and stay so. -/
lemma pairwise_insertName (h : names.Pairwise (· < ·)) (s : String) :
    (insertName s names).Pairwise (· < ·) := by
  induction names with
  | nil => exact List.pairwise_singleton _ _
  | cons u rest ih =>
      obtain ⟨hu, hrest⟩ := List.pairwise_cons.mp h
      unfold insertName
      split_ifs with heq hlt
      · exact h
      · refine List.pairwise_cons.mpr ⟨fun v hv => ?_, h⟩
        rcases List.mem_cons.mp hv with rfl | hv
        · exact hlt
        · exact String.lt_trans hlt (hu v hv)
      · refine List.pairwise_cons.mpr ⟨fun v hv => ?_, ih hrest⟩
        rcases mem_insertName.mp hv with rfl | hv
        · by_contra hge
          exact heq (String.le_antisymm (String.not_lt.mp hge) (String.not_lt.mp hlt))
        · exact hu v hv

/-- A name that is there is not inserted again. -/
lemma insertName_of_mem (h : names.Pairwise (· < ·)) (hs : s ∈ names) :
    insertName s names = names := by
  induction names with
  | nil => cases hs
  | cons u rest ih =>
      obtain ⟨hu, hrest⟩ := List.pairwise_cons.mp h
      unfold insertName
      split_ifs with heq hlt
      · rfl
      · have hs := (List.mem_cons.mp hs).resolve_left heq
        exact absurd (hu s hs) (String.lt_asymm hlt)
      · rw [ih hrest ((List.mem_cons.mp hs).resolve_left heq)]

end Rising

/-! ### Lists of models -/

/-- A model is put where its key belongs. -/
lemma keys_putModel (key : String) (m : Model) (models : List (String × Model)) :
    (putModel key m models).map (·.1) = insertName key (models.map (·.1)) := by
  induction models with
  | nil => rfl
  | cons p rest ih =>
      unfold putModel
      rw [List.map_cons, insertName]
      split_ifs with heq hlt
      · rw [List.map_cons, heq]
      · rfl
      · rw [List.map_cons, ih]

/-- Models that are put in one after the other stand in rising order of their keys. -/
lemma pairwise_sortModels (models : List (String × Model)) :
    ((sortModels models).map (·.1)).Pairwise (· < ·) := by
  have hfold : ∀ sorted : List (String × Model), (sorted.map (·.1)).Pairwise (· < ·) →
      ((models.foldl (fun sorted p => putModel p.1 p.2 sorted) sorted).map (·.1)).Pairwise
        (· < ·) := by
    induction models with
    | nil => exact fun _ h => h
    | cons p rest ih =>
      exact fun sorted h => ih _ (keys_putModel p.1 p.2 sorted ▸ pairwise_insertName h p.1)
  exact hfold [] List.Pairwise.nil

/-- A key is looked for at the first entry, then behind it. -/
lemma lookup_cons_eq {α : Type} (key k : String) (a : α) (rest : List (String × α)) :
    ((key, a) :: rest).lookup k = if k = key then some a else rest.lookup k := by
  by_cases hkey : k = key
  · rw [if_pos hkey, hkey, List.lookup_cons_self]
  · rw [if_neg hkey, List.lookup_cons, beq_false_of_ne hkey]

/-- A model is found under the key that it was put under, and the others are found as before. -/
lemma lookup_putModel :
    (putModel key m models).lookup k = if k = key then some m else models.lookup k := by
  induction models with
  | nil => exact lookup_cons_eq key k m []
  | cons p rest ih =>
      unfold putModel
      split_ifs <;> grind [lookup_cons_eq]

/-! ### Configurations -/

/-- The models stand in rising order of their keys, so that no key is there twice. -/
def IsOrdered (c : Config) : Prop := c.keys.Pairwise (· < ·)

/-- Put a model under a key, instead of one that was there. -/
def put (key : String) (m : Model) (c : Config) : Config :=
  { c with models := putModel key m c.models }

/-- Putting a model under a key inserts that key. -/
lemma keys_put (c : Config) (key : String) (m : Model) :
    (c.put key m).keys = insertName key c.keys :=
  keys_putModel key m c.models

/-- Putting a model under a key keeps the order. -/
lemma IsOrdered.put (h : c.IsOrdered) (key : String) (m : Model) : (c.put key m).IsOrdered := by
  rw [IsOrdered, keys_put]
  exact pairwise_insertName h key

/-- A model is found where it was put, and all others where they were. -/
lemma model?_put : (c.put key m).model? k = if k = key then some m else c.model? k :=
  lookup_putModel

/-- A key that is there stays in its place. -/
lemma IsOrdered.keys_put (h : c.IsOrdered) (hkey : key ∈ c.keys) :
    (c.put key m).keys = c.keys := by
  rw [Config.keys_put, insertName_of_mem h hkey]

/-- Each model is found under its key. -/
lemma IsOrdered.model?_eq (h : c.IsOrdered) {p : String × Model} (hp : p ∈ c.models) :
    c.model? p.1 = some p.2 := by
  unfold IsOrdered keys at h
  unfold model?
  generalize c.models = models at h hp
  induction models with
  | nil => cases hp
  | cons q rest ih =>
      obtain ⟨hq, hrest⟩ := List.pairwise_cons.mp h
      rcases List.mem_cons.mp hp with rfl | hp
      · exact (lookup_cons_eq _ _ _ _).trans (if_pos rfl)
      · have hne : p.1 ≠ q.1 := by
          intro heq
          have hlt := hq p.1 (List.mem_map_of_mem hp)
          rw [heq] at hlt
          exact String.lt_irrefl _ hlt
        exact ((lookup_cons_eq _ _ _ _).trans (if_neg hne)).trans (ih hrest hp)

/-- A key is there exactly if there is a model under it. -/
lemma model?_isSome_iff : (c.model? key).isSome = true ↔ key ∈ c.keys := by
  rw [model?, List.lookup_isSome_iff, keys, List.mem_map]
  simp only [beq_iff_eq]
  exact ⟨fun ⟨p, hp, heq⟩ => ⟨p, hp, heq.symm⟩, fun ⟨p, hp, heq⟩ => ⟨p, hp, heq.symm⟩⟩

/-- A configuration that is built from models has them in order. -/
lemma isOrdered_ofModels (defaultModel : String) (models : List Model) (policy : Policy)
    (timeout : Nat) : (ofModels defaultModel models policy timeout).IsOrdered :=
  pairwise_sortModels _

/-- Normalizing keeps the order. -/
lemma IsOrdered.normalize (h : c.IsOrdered) : c.normalize.IsOrdered := by
  have hkeys : c.normalize.keys = c.keys := by simp [keys, Config.normalize, Function.comp_def]
  rwa [IsOrdered, hkeys]

/-! ### Texts -/

/-- A table of models is read model by model, and then put in order. -/
lemma exists_of_modelsOfToml? {v : Toml.Value} (h : modelsOfToml? v = some models) :
    ∃ style entries unsorted, v = .table style entries ∧
      (entries.mapM fun p => (modelOfToml? p.2).map (p.1, ·)) = some unsorted ∧
      models = sortModels unsorted := by
  unfold modelsOfToml? at h
  split at h
  · obtain ⟨unsorted, hunsorted, rfl⟩ := Option.map_eq_some_iff.mp h
    exact ⟨_, _, unsorted, rfl, hunsorted, rfl⟩
  · cases h

/-- Where the models of a configuration are in its text. -/
lemma exists_of_parseToml? {text : String} (h : parseToml? text = some c) :
    ∃ members v, Toml.parse? text = some members ∧ members.lookup "models" = some v ∧
      modelsOfToml? v = some c.models := by
  obtain ⟨members, hmembers, hrest⟩ := Option.bind_eq_some_iff.mp h
  obtain ⟨defaultModel, -, hrest⟩ := Option.bind_eq_some_iff.mp hrest
  obtain ⟨models, hmodels, hrest⟩ := Option.bind_eq_some_iff.mp hrest
  obtain ⟨policy, -, hrest⟩ := Option.bind_eq_some_iff.mp hrest
  obtain ⟨timeout, -, hrest⟩ := Option.bind_eq_some_iff.mp hrest
  cases hrest
  obtain ⟨v, hv, hread⟩ := Option.bind_eq_some_iff.mp hmodels
  exact ⟨members, v, hmembers, hv, hread⟩

/-- A mapping of models is read model by model, and then put in order. -/
lemma exists_of_modelsOfYaml? {n : Yaml.Node} (h : modelsOfYaml? n = some models) :
    ∃ entries unsorted, n.asMembers? = some entries ∧
      (entries.mapM fun p => (modelOfYaml? p.2).map (p.1, ·)) = some unsorted ∧
      models = sortModels unsorted := by
  obtain ⟨entries, hentries, hrest⟩ := Option.bind_eq_some_iff.mp h
  obtain ⟨unsorted, hunsorted, hsorted⟩ := Option.bind_eq_some_iff.mp hrest
  exact ⟨entries, unsorted, hentries, hunsorted, (Option.some.inj hsorted).symm⟩

/-- A configuration in which nothing is missing has the models that were read. -/
lemma models_of_missingIn {defaultModel : Option String} {models? : Option (List (String × Model))}
    {policy : Policy} {timeout : Nat}
    (h : missingIn defaultModel models? policy timeout = .ok c) : models? = some c.models := by
  cases defaultModel <;> cases models? <;> cases h
  rfl

/-- Where the models of a configuration are in its document. -/
lemma exists_of_ofYaml {n : Yaml.Node} (h : ofYaml n = .ok c) :
    ∃ members v, n.asMembers? = some members ∧ member? "models" members = some (some v) ∧
      modelsOfYaml? v = some c.models := by
  unfold ofYaml at h
  split at h
  · cases h
  · split at h
    · rename_i result hresult
      subst h
      obtain ⟨members, hmembers, hrest⟩ := Option.bind_eq_some_iff.mp hresult
      obtain ⟨defaultModel, -, hrest⟩ := Option.bind_eq_some_iff.mp hrest
      obtain ⟨models?, hmodels, hrest⟩ := Option.bind_eq_some_iff.mp hrest
      obtain ⟨policy, -, hrest⟩ := Option.bind_eq_some_iff.mp hrest
      obtain ⟨timeout, -, hrest⟩ := Option.bind_eq_some_iff.mp hrest
      rw [Option.some.injEq] at hrest
      obtain rfl := models_of_missingIn hrest
      obtain ⟨value, hvalue, hread⟩ := Option.bind_eq_some_iff.mp hmodels
      cases value with
      | none => cases hread
      | some v =>
          obtain ⟨sorted, hsorted, hsome⟩ := Option.map_eq_some_iff.mp hread
          exact ⟨members, v, hmembers, hvalue, hsorted.trans hsome⟩
    · cases h

/-- What is read although faults are put into other words was read. -/
lemma eq_ok_of_mapError {ε δ α : Type} {r : Except ε α} {words : ε → δ} {a : α}
    (h : r.mapError words = .ok a) : r = .ok a := by
  cases r with
  | error e => cases h
  | ok a' => exact congrArg _ (Except.ok.inj h)

/-- What is read from a text in TOML is the configuration that it has. -/
lemma parseToml?_of_parseToml {text : String} (h : parseToml text = .ok c) :
    parseToml? text = some c := by
  unfold parseToml at h
  cases hread : parseToml? text with
  | none =>
      rw [hread] at h
      cases h
  | some c' =>
      rw [hread] at h
      exact congrArg some (Except.ok.inj h)

/-- What is read from a text in YAML is in its document. -/
lemma exists_of_parseYaml {text : String} (h : parseYaml text = .ok c) :
    ∃ n, Yaml.Node.parse? text = some n ∧ ofYaml n = .ok c := by
  unfold parseYaml at h
  cases hnode : Yaml.Node.parse? text with
  | none =>
      rw [hnode] at h
      cases h
  | some n =>
      rw [hnode] at h
      exact ⟨n, rfl, h⟩

/-- A text is read in the format that its path says. -/
lemma exists_of_parse {path text : String} (h : parse path text = .ok c) :
    (isToml path = true ∧ parseToml? text = some c) ∨
      (isToml path = false ∧ ∃ n, Yaml.Node.parse? text = some n ∧ ofYaml n = .ok c) := by
  unfold parse at h
  split_ifs at h with htoml
  · exact .inl ⟨htoml, parseToml?_of_parseToml (eq_ok_of_mapError h)⟩
  · exact .inr ⟨eq_false_of_ne_true htoml, exists_of_parseYaml (eq_ok_of_mapError h)⟩

/-- **Configurations that are read are ordered**, in whichever format they are written. -/
lemma isOrdered_of_parse {path text : String} (h : parse path text = .ok c) :
    c.normalize.IsOrdered := by
  apply IsOrdered.normalize
  rw [IsOrdered, keys]
  obtain ⟨-, htoml⟩ | ⟨-, n, -, hread⟩ := exists_of_parse h
  · obtain ⟨-, v, -, -, hv⟩ := exists_of_parseToml? htoml
    obtain ⟨-, -, unsorted, -, -, hmodels⟩ := exists_of_modelsOfToml? hv
    exact hmodels ▸ pairwise_sortModels unsorted
  · obtain ⟨-, v, -, -, hv⟩ := exists_of_ofYaml hread
    obtain ⟨-, unsorted, -, -, hmodels⟩ := exists_of_modelsOfYaml? hv
    exact hmodels ▸ pairwise_sortModels unsorted

end CodeReview.Config

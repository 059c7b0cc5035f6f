import CodeReview.Proofs.Model.Discretion

/-!
# Questions that are not asked

Two faults of a configuration keep a question from being asked: its model has no address
(`Model.baseFault`), or the key variable of its model has no value (`Model.keyFault`).  Once a model
has both, whatever else goes wrong is no fault of the configuration (`Question.askWith_kind_ne`), so
that a model with an address is never refused for want of one (`Question.askNetwork_ne_baseFault`).
-/

namespace CodeReview

open CodeReview.Http CodeReview.Text

namespace Model

/-- What is wrong where a model has no address. -/
def baseFault (m : Model) : ServiceFault :=
  ⟨.configuration, "Model '" ++ m.name ++ "' uses provider '" ++ m.provider.name ++
    "' which requires api_base"⟩

/-- What is wrong where a model has no key. -/
def keyFault (m : Model) : ServiceFault :=
  ⟨.configuration, "API key for model '" ++ m.name ++ "' not found. Set the " ++ m.keyName ++
    " environment variable"⟩

/-- A model with an address has a base. -/
lemma base_of_baseUrl? {m : Model} {base : String} (h : m.baseUrl? = some base) :
    m.base = .ok base := by
  rw [Model.base, h]

/-- A model has no key where its variable is not set, or has a blank value. -/
lemma key_eq_error_iff (m : Model) (value? : Option String) :
    m.key value? = .error m.keyFault ↔ ∀ value ∈ value?, allBlank value = true := by
  cases value? with
  | none => simp [key, keyFault]
  | some value => cases hblank : allBlank value <;> simp [key, keyFault, hblank, Option.filter_some]

/-- There is a key, or the fault that says that there is none. -/
lemma key_cases (m : Model) (value? : Option String) :
    (∃ key, m.key value? = .ok key) ∨ m.key value? = .error m.keyFault := by
  unfold key
  cases value?.filter (!allBlank ·) with
  | none => exact .inr rfl
  | some value => exact .inl ⟨trim value, rfl⟩

/-- The two faults are told apart by their first letters. -/
lemma keyFault_ne_baseFault (m : Model) : m.keyFault ≠ m.baseFault := by
  intro h
  have hreason := congrArg (fun f : ServiceFault => f.reason.toList.head?) h
  simp [keyFault, baseFault, String.toList_append] at hreason

end Model

namespace ServiceFault

/-- A fault of an exchange is not one of the configuration. -/
lemma ofExchange_kind_ne (f : Fault) : (ofExchange f).kind ≠ .configuration := by
  cases f <;> exact nofun

/-- A refusal is not a fault of the configuration. -/
lemma ofRefusal_kind_ne (status : ℕ) (body : String) :
    (ofRefusal status body).kind ≠ .configuration := by
  unfold ofRefusal
  dsimp only
  split_ifs <;> exact nofun

end ServiceFault

namespace Question

variable {q : Question} {f : ServiceFault} {m : Machine}

/-- A response that cannot be used is not a fault of the configuration. -/
lemma readAnswer_kind_ne {r : Response} (h : ((q.readAnswer r).run m).1 = .error f) :
    f.kind ≠ .configuration := by
  unfold readAnswer at h
  dsimp only at h
  split_ifs at h
  · obtain rfl := Except.error.inj h
    exact ServiceFault.ofRefusal_kind_ne _ _
  all_goals
    split at h
    · obtain rfl := Except.error.inj h
      exact nofun
    · rename_i answer _
      rcases hremarks : (q.model.provider.dialect.remarks q.model answer).run m with ⟨⟨⟩, m'⟩
      rw [Act.run_bind_of hremarks] at h
      cases htext : answer.text? with
      | some text =>
          rw [htext] at h
          cases h
      | none =>
          rw [htext] at h
          obtain rfl := Except.error.inj h
          exact nofun

/-- Nothing that comes of an exchange is a fault of the configuration. -/
lemma exchange_kind_ne {timeout : Duration} {request : Except Fault Request}
    (h : ((q.exchange timeout request).run m).1 = .error f) : f.kind ≠ .configuration := by
  unfold exchange at h
  cases request with
  | error e =>
      obtain rfl := Except.error.inj h
      exact ServiceFault.ofExchange_kind_ne e
  | ok r =>
      dsimp only at h
      rcases hsend : (send timeout r).run m with ⟨e | response, m'⟩
      · rw [Act.run_bind_of hsend] at h
        obtain rfl := Except.error.inj h
        exact ServiceFault.ofExchange_kind_ne e
      · rw [Act.run_bind_of hsend] at h
        exact readAnswer_kind_ne h

/-- **With an address and a key, no fault is one of the configuration.** -/
lemma askWith_kind_ne {timeout : Duration} {base key : String}
    (h : ((q.askWith timeout base key).run m).1 = .error f) : f.kind ≠ .configuration :=
  exchange_kind_ne (m := (m.note _).note _) h

/-- **A model with an address is never refused for want of one.** -/
lemma askNetwork_ne_baseFault {base : String} (hbase : q.model.base = .ok base)
    (timeout : Duration) (m : Machine) :
    ((q.askNetwork timeout).run m).1 ≠ .error q.model.baseFault := by
  intro h
  rcases q.model.key_cases (m.setting? q.model.keyName) with ⟨key, hkey⟩ | hkey
  · rw [askNetwork_run timeout hbase hkey] at h
    exact askWith_kind_ne h rfl
  · rw [askNetwork_run_of_no_key timeout hbase hkey] at h
    exact q.model.keyFault_ne_baseFault (Except.error.inj h)

end Question

end CodeReview

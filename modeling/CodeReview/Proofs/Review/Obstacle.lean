import CodeReview.Proofs.Disk.Parents
import CodeReview.Proofs.Prompt.Substitution
import CodeReview.Proofs.Review.Submission

/-!
# What stops a review

Five obstacles can keep a review from the gate: there is no such model, no text of the source, no
language, no target language where one is needed, or the prompt still holds placeholder text.  Each
is said on its own, so that several can stand at once; `Obstacle.first?` is the first of those that
stand.

Main statement: `Desk.stopped_iff`.  A review is stopped exactly when an obstacle stands, what is
reported is the first, and a review that was stopped leaves desk, disk and output as they were and
has asked nobody but, for its source, the network -- where the model is unknown, not even that.
-/

namespace CodeReview

open CodeReview.Text CodeReview.Prompt

/-! ### The obstacles -/

namespace Invocation

/-- The name of the source language: the one given, unless it is blank, else the one that the name
of the source shows. -/
def sourceName? (i : Invocation) : Option String :=
  if i.language.all allBlank then Source.language? i.locator else i.language.map trim

/-- The name of the target language, unless it is blank. -/
def targetName? (i : Invocation) : Option String :=
  if i.targetLanguage.all allBlank then none else i.targetLanguage.map trim

/-- The template with the names put in place of their marks, where all names that it needs are
there. -/
def draft? (i : Invocation) : Option String :=
  i.sourceName?.bind fun source =>
    let named := replace (Template.ofOperation i.operation).text languageMark source
    if i.operation = .convertLanguage then i.targetName?.map (replace named targetMark) else named

/-- The key of the model that is to be asked. -/
def modelKey (i : Invocation) (c : Config) : String := i.model.getD c.defaultModel

end Invocation

/-- What can keep a review from the gate. -/
inductive Obstacle where
  | model
  | source
  | language
  | target
  | placeholder
  deriving Repr, DecidableEq

namespace Obstacle

/-- Every obstacle, in the order in which they are met. -/
def all : List Obstacle := [model, source, language, target, placeholder]

/-- The obstacle is there, whatever else is in the way. -/
def stands (c : Config) (i : Invocation) (m : Machine) : Obstacle → Bool
  | model => !c.keys.contains (i.modelKey c)
  | source => ((Source.resolve c.requestTimeout i.locator).run.run m).1.toOption.isNone
  | language => i.language.all allBlank && (Source.language? i.locator).isNone
  | target => i.operation == .convertLanguage && i.targetLanguage.all allBlank
  | placeholder => i.draft?.any hasMark

/-- The first obstacle that is there. -/
def first? (c : Config) (i : Invocation) (m : Machine) : Option Obstacle :=
  all.find? (stands c i m)

/-- The failure reports the obstacle. -/
def Reports (c : Config) (i : Invocation) (m : Machine) (f : Failure) : Obstacle → Prop
  | model => f = .configuration ("Unknown model " ++ Config.inQuotes (i.modelKey c))
      (some "models") (some ("Available models: " ++ ", ".intercalate c.keys))
  | source => ((Source.resolve c.requestTimeout i.locator).run.run m).1 = .error f ∧
      ((∃ reason, f = .sourceRead (trim i.locator) reason) ∨
        ∃ status reason, f = .sourceFetch (trim i.locator) status reason)
  | language => f = .missingParameter i.operation .sourceLanguage
  | target => f = .missingParameter i.operation .targetLanguage
  | placeholder => f = .configuration
      ("Template for '" ++ i.operation.name ++ "' has an unresolved placeholder")
      (some "prompt template") none

end Obstacle

/-! ### Failures of a command -/

namespace Command

variable {α β : Type} {P : Failure → Prop}

/-- Where a command fails, its failure has this property. -/
def FailsWith (P : Failure → Prop) (c : Command α) : Prop :=
  ∀ m f, (c.run.run m).1 = .error f → P f

/-- A command that fails outright fails with its failure. -/
lemma failsWith_throw {f : Failure} (h : P f) : FailsWith P (throw f : Command α) := by
  intro m f' hf
  cases hf
  exact h

/-- What never fails has no failure that could be of another kind. -/
lemma failsWith_pure (a : α) : FailsWith P (pure a : Command α) := by
  intro m f hf
  cases hf

/-- An act never fails. -/
lemma failsWith_lift (act : Act α) : FailsWith P (liftM act : Command α) := by
  intro m f hf
  cases hf

/-- Commands one after the other fail as the one or the other does. -/
lemma FailsWith.bind {c : Command α} {g : α → Command β} (h : FailsWith P c)
    (hg : ∀ a, FailsWith P (g a)) : FailsWith P (c >>= g) := by
  intro m f hf
  obtain ⟨r, m', hr⟩ : ∃ r m', c.run.run m = (r, m') := ⟨_, _, rfl⟩
  cases r with
  | error e =>
      rw [run_bind_of_error hr] at hf
      cases hf
      exact h m f (by rw [hr])
  | ok a =>
      rw [run_bind_of_ok hr] at hf
      exact hg a m' f hf

/-- A try fails as its faults are turned into failures. -/
lemma failsWith_orFail {ε : Type} (act : Act (Except ε α)) {failure : ε → Failure}
    (h : ∀ e, P (failure e)) : FailsWith P (orFail act failure) := by
  unfold orFail
  refine (failsWith_lift act).bind fun r => ?_
  cases r with
  | ok a => exact failsWith_pure a
  | error e => exact failsWith_throw (h e)

/-- A step that is taken only sometimes, before what is done in any case. -/
lemma FailsWith.sometimes {p : Prop} [Decidable p] {step : Command α} {rest : Command β}
    (hstep : FailsWith P step) (hrest : FailsWith P rest) :
    FailsWith P (if p then step >>= fun _ => rest else rest) := by
  split_ifs
  · exact hstep.bind fun _ => hrest
  · exact hrest

end Command

namespace Source

open Command

/-- The failure is one of reading or of fetching what the locator names. -/
def IsFault (locator : String) (f : Failure) : Prop :=
  (∃ reason, f = .sourceRead locator reason) ∨ ∃ status reason, f = .sourceFetch locator status reason

/-- A failure to read is a fault of the source. -/
lemma isFault_read (locator reason : String) : IsFault locator (.sourceRead locator reason) :=
  .inl ⟨reason, rfl⟩

/-- A failure to fetch is a fault of the source. -/
lemma isFault_fetch (locator : String) (status : Option ℕ) (reason : String) :
    IsFault locator (.sourceFetch locator status reason) := .inr ⟨status, reason, rfl⟩

/-- Whatever is wrong with a source is reported under its locator without blank ends. -/
lemma fetch_failsWith (timeout : Duration) (locator : String) (url : Url) :
    FailsWith (IsFault locator) (fetch timeout locator url) := by
  have hfault : ∀ status reason, IsFault locator (.sourceFetch locator status reason) :=
    isFault_fetch locator
  unfold fetch
  refine (failsWith_lift _).bind fun _ => ?_
  refine (failsWith_orFail _ fun _ => hfault _ _).bind fun request => ?_
  refine (failsWith_orFail _ fun _ => hfault _ _).bind fun response => ?_
  refine FailsWith.sometimes (failsWith_throw (hfault _ _)) ?_
  refine (failsWith_orFail _ fun _ => hfault _ _).bind fun text => ?_
  exact (failsWith_lift _).bind fun _ => failsWith_pure text

/-- Whatever is wrong with a source is reported under its locator without blank ends. -/
lemma resolve_failsWith (timeout : Duration) (locator : String) :
    FailsWith (IsFault (trim locator)) (resolve timeout locator) := by
  unfold resolve
  generalize trim locator = trimmed
  refine FailsWith.sometimes (failsWith_throw (isFault_read _ _)) ?_
  cases place trimmed with
  | web url => exact fetch_failsWith timeout trimmed url
  | file path =>
      unfold readFile
      exact (failsWith_lift _).bind fun _ => failsWith_orFail _ fun _ => isFault_read _ _
  | nowhere => exact failsWith_throw (isFault_read _ _)

end Source

/-! ### Models -/

namespace Config

variable {c : Config} {requested : Option String}

/-- A model that is found under the key is the one that is asked. -/
lemma resolve_of_some {found : Model} (h : c.model? (requested.getD c.defaultModel) = some found) :
    c.resolve requested = .ok found := by
  simp only [resolve, h]

/-- Where no model is found under the key, the failure names the key and the models that there
are. -/
lemma resolve_of_none (h : c.model? (requested.getD c.defaultModel) = none) :
    c.resolve requested = .error (.configuration
      ("Unknown model " ++ inQuotes (requested.getD c.defaultModel)) (some "models")
      (some ("Available models: " ++ ", ".intercalate c.keys))) := by
  simp only [resolve, h]

end Config

/-! ### Names of languages -/

namespace Prompt

variable {value : Option String} {name : String}

/-- A name that was taken is taken as it is when it is given again. -/
lemma given?_some_of_given? (h : given? value = some name) : given? (some name) = some name := by
  obtain ⟨hmem, hne⟩ := Option.filter_eq_some_iff.mp h
  obtain ⟨v, -, rfl⟩ := Option.map_eq_some_iff.mp hmem
  simpa [given?, trim_trim] using hne

end Prompt

/-- The languages of files are names as they are given. -/
lemma Source.given?_of_language? {locator name : String} (h : Source.language? locator = some name) :
    given? (some name) = some name := by
  rw [Source.language?, Source.languageOfPath?] at h
  obtain ⟨extension, -, hname⟩ := Option.bind_eq_some_iff.mp h
  have hall : ∀ p ∈ Source.languages, given? (some p.2) = some p.2 := by decide +kernel
  obtain ⟨before, after, htable, -⟩ := List.lookup_eq_some_iff.mp hname
  exact hall (lowerAscii extension, name) (by simp [htable])

namespace Invocation

variable {i : Invocation} {source : String}

/-- The source language is the one that is given, if one is, or else the one that the name shows. -/
lemma sourceName?_eq (i : Invocation) :
    i.sourceName? = (given? i.language).or (Source.language? i.locator) := by
  rw [sourceName?, given?_eq]
  cases i.language with
  | none => simp
  | some v =>
      cases hv : allBlank v with
      | true => simp [hv]
      | false => simp [hv]

/-- The name that is found counts as given. -/
lemma given?_of_sourceName? (h : i.sourceName? = some source) :
    given? (some source) = some source := by
  rw [sourceName?_eq, Option.or_eq_some_iff] at h
  obtain hgiven | ⟨-, hshown⟩ := h
  · exact given?_some_of_given? hgiven
  · exact Source.given?_of_language? hshown

/-- Where the source is in no known language, that is what is reported. -/
lemma sourceLanguage_result (i : Invocation) (m : Machine) :
    (i.sourceLanguage.run.run m).1 =
      i.sourceName?.elim (.error (.missingParameter i.operation .sourceLanguage)) .ok := by
  rw [sourceName?_eq, sourceLanguage]
  cases given? i.language with
  | some language => rfl
  | none => cases Source.language? i.locator <;> rfl

/-- A prompt is made from the names unless the target is missing or placeholder text is left. -/
lemma render_result (hsource : i.sourceName? = some source) :
    render i.operation (some source) i.targetLanguage =
      match i.draft? with
      | none => .error (.missing .targetLanguage)
      | some draft => if hasMark draft then .error .unresolved else .ok draft := by
  have hneeds : (i.operation = .convertLanguage) ↔ i.operation.needsTarget = true := by
    cases i.operation <;> simp [Operation.needsTarget]
  have htarget : i.targetName? = given? i.targetLanguage := (given?_eq _).symm
  simp only [render, given?_of_sourceName? hsource, draft?, hsource, Option.bind_some, htarget,
    hneeds]
  cases i.operation.needsTarget with
  | false =>
      simp only [Bool.false_eq_true, if_false, pure_bind]
      split_ifs <;> rfl
  | true =>
      cases given? i.targetLanguage with
      | none => rfl
      | some target =>
          simp only [if_true, pure_bind, Option.map_some]
          split_ifs <;> rfl

end Invocation

/-! ### Obstacles on the way to the gate -/

namespace Obstacle

variable {c : Config} {i : Invocation} {m : Machine}

/-- The model is found, or its obstacle stands and is reported. -/
lemma model_cases (c : Config) (i : Invocation) (m : Machine) :
    (∃ model, c.resolve i.model = .ok model ∧ stands c i m .model = false) ∨
      ∃ f, c.resolve i.model = .error f ∧ stands c i m .model = true ∧ Reports c i m f .model := by
  have hkeys : (c.model? (i.modelKey c)).isSome = c.keys.contains (i.modelKey c) := by
    rw [Bool.eq_iff_iff, Config.model?, List.lookup_isSome_iff, List.contains_iff_mem, Config.keys,
      List.mem_map]
    refine exists_congr fun p => and_congr_right fun _ => ?_
    rw [beq_iff_eq, eq_comm]
  cases hmodel : c.model? (i.modelKey c) with
  | some found =>
      exact .inl ⟨found, Config.resolve_of_some hmodel, by rw [stands, ← hkeys, hmodel]; rfl⟩
  | none =>
      exact .inr ⟨_, Config.resolve_of_none hmodel, by rw [stands, ← hkeys, hmodel]; rfl, rfl⟩

/-- The source is read, or its obstacle stands and is reported. -/
lemma source_cases (c : Config) (i : Invocation) (m : Machine) :
    (∃ text m', (Source.resolve c.requestTimeout i.locator).run.run m = (.ok text, m') ∧
        stands c i m .source = false) ∨
      ∃ f m', (Source.resolve c.requestTimeout i.locator).run.run m = (.error f, m') ∧
        stands c i m .source = true ∧ Reports c i m f .source := by
  obtain ⟨r, m', hr⟩ : ∃ r m',
      (Source.resolve c.requestTimeout i.locator).run.run m = (r, m') := ⟨_, _, rfl⟩
  cases r with
  | ok text => exact .inl ⟨text, m', hr, by rw [stands, hr]; rfl⟩
  | error f =>
      have hf : ((Source.resolve c.requestTimeout i.locator).run.run m).1 = .error f := by rw [hr]
      refine .inr ⟨f, m', hr, by rw [stands, hr]; rfl, hf, ?_⟩
      exact Source.resolve_failsWith _ _ m f hf

/-- The source language is known, or its obstacle stands. -/
lemma language_cases (c : Config) (i : Invocation) (m : Machine) :
    (∃ source, i.sourceName? = some source ∧ stands c i m .language = false) ∨
      i.sourceName? = none ∧ stands c i m .language = true := by
  unfold Invocation.sourceName? stands
  cases hlanguage : i.language with
  | none => cases Source.language? i.locator <;> simp
  | some v =>
      cases hv : allBlank v with
      | true => cases Source.language? i.locator <;> simp [hv]
      | false => simp [hv]

/-- The template can be filled in, or the obstacle of the target language stands. -/
lemma target_cases {source : String} (c : Config) (m : Machine) (h : i.sourceName? = some source) :
    (∃ draft, i.draft? = some draft ∧ stands c i m .target = false) ∨
      i.draft? = none ∧ stands c i m .target = true := by
  unfold Invocation.draft? Invocation.targetName? stands
  rw [h, Option.bind_some]
  by_cases hop : i.operation = .convertLanguage
  · cases htarget : i.targetLanguage with
    | none => simp [hop]
    | some v => cases hv : allBlank v <;> simp [hop, hv]
  · simp [hop]

/-- **A review is prepared unless an obstacle stands, and the first that stands is reported.** -/
lemma prepare_result (c : Config) (i : Invocation) (m : Machine) :
    match first? c i m with
    | none => ∃ p, ((i.prepare c).run.run m).1 = .ok p
    | some o => ∃ f, ((i.prepare c).run.run m).1 = .error f ∧ o.Reports c i m f := by
  unfold Invocation.prepare
  obtain ⟨found, hmodel, hno₁⟩ | ⟨f, hmodel, hyes, hreports⟩ := model_cases c i m
  case inr =>
    rw [first?, all, List.find?_cons, hyes]
    exact ⟨f, by rw [hmodel]; rfl, hreports⟩
  have hstart : (liftM (c.resolve i.model) : Command Model).run.run m = (.ok found, m) := by
    rw [hmodel]
    rfl
  rw [Command.run_bind_of_ok hstart]
  obtain ⟨text, m₁, hsource, hno₂⟩ | ⟨f, m₁, hsource, hyes, hreports⟩ := source_cases c i m
  case inr =>
    rw [first?, all, List.find?_cons, hno₁, List.find?_cons, hyes]
    exact ⟨f, by rw [Command.run_bind_of_error hsource], hreports⟩
  rw [Command.run_bind_of_ok hsource]
  obtain ⟨r, m₂, hlanguage⟩ : ∃ r m₂, i.sourceLanguage.run.run m₁ = (r, m₂) := ⟨_, _, rfl⟩
  have hresult := i.sourceLanguage_result m₁
  rw [hlanguage] at hresult
  obtain ⟨source, hname, hno₃⟩ | ⟨hname, hyes⟩ := language_cases c i m
  case inr =>
    rw [hname] at hresult
    obtain rfl : r = _ := hresult
    rw [first?, all, List.find?_cons, hno₁, List.find?_cons, hno₂, List.find?_cons, hyes]
    exact ⟨_, by rw [Command.run_bind_of_error hlanguage], rfl⟩
  rw [hname] at hresult
  obtain rfl : r = .ok source := hresult
  rw [Command.run_bind_of_ok hlanguage, Invocation.render_result hname]
  obtain ⟨draft, hdraft, hno₄⟩ | ⟨hdraft, hyes⟩ := target_cases c m hname
  case inr =>
    rw [first?, all, List.find?_cons, hno₁, List.find?_cons, hno₂, List.find?_cons, hno₃,
      List.find?_cons, hyes, hdraft]
    exact ⟨_, rfl, rfl⟩
  rw [first?, all, List.find?_cons, hno₁, List.find?_cons, hno₂, List.find?_cons, hno₃,
    List.find?_cons, hno₄, List.find?_cons, stands, hdraft]
  cases hmark : hasMark draft with
  | true =>
      simp only [Option.any_some, hmark]
      exact ⟨_, rfl, rfl⟩
  | false =>
      simp only [Option.any_some, hmark]
      exact ⟨_, rfl⟩

end Obstacle

/-! ### Reviews that are prepared -/

namespace Source

/-- A file that can be read is a source. -/
lemma resolve_of_file {timeout : Duration} {locator path text : String} {m : Machine}
    (hnonempty : (trim locator == "") = false) (hplace : place (trim locator) = .file path)
    (htext : m.disk.readText path = .ok text) : (resolve timeout locator).run.run m =
      (.ok text, m.note (.logged .debug ("📄 Reading source from " ++ path))) := by
  have hlog : (liftM (Act.log .debug ("📄 Reading source from " ++ path)) : Command Unit).run.run m =
      (.ok (), m.note (.logged .debug ("📄 Reading source from " ++ path))) := rfl
  have hresult := congrArg (Except.mapError fun e => Failure.sourceRead (trim locator) e.message)
    htext
  unfold resolve
  simp only [hnonempty, hplace]
  exact (Command.run_bind_of_ok hlog).trans
    ((Command.run_orFail _ _ _).trans (Prod.ext hresult rfl))

end Source

namespace Invocation

variable {c : Config} {i : Invocation} {m m' : Machine} {model : Model}
  {text language prompt : String}

/-- A review of a source that is to be had, in a language that is given, is prepared. -/
lemma prepare_of_source (hmodel : c.resolve i.model = .ok model)
    (hsource : (Source.resolve c.requestTimeout i.locator).run.run m = (.ok text, m'))
    (hlanguage : given? i.language = some language)
    (hprompt : render i.operation (some language) i.targetLanguage = .ok prompt) :
    (i.prepare c).run.run m =
      (.ok ⟨i.operation, language, i.targetLanguage, text, model, prompt⟩, m') := by
  have hstart : (liftM (c.resolve i.model) : Command Model).run.run m = (.ok model, m) := by
    rw [hmodel]
    rfl
  have hname : i.sourceLanguage.run.run m' = (.ok language, m') := by
    rw [sourceLanguage, hlanguage]
    rfl
  unfold prepare
  rw [Command.run_bind_of_ok hstart, Command.run_bind_of_ok hsource, Command.run_bind_of_ok hname,
    hprompt]
  rfl

/-- A file of one letter is to be converted. -/
lemma exists_prepare_letter (hmodel : c.resolve none = .ok model)
    (hdisk : m.disk = ⟨[(["a.py"], .file ⟨#[112]⟩)], []⟩) :
    ∃ prompt,
      (prepare ⟨.convertLanguage, "a.py", some "python", some "rust", none, none⟩ c).run.run m =
        (.ok ⟨.convertLanguage, "python", some "rust", "p", model, prompt⟩,
          m.note (.logged .debug ("📄 Reading source from " ++ "a.py"))) := by
  obtain ⟨prompt, hprompt⟩ : ∃ prompt,
      render .convertLanguage (some "python") (some "rust") = .ok prompt :=
    render_convertLanguage "python" "rust" (by repeat' (first | apply append_of_eq | rfl))
      (by decide) (by decide) (by decide)
  have htext : m.disk.readText "a.py" = .ok "p" := by
    rw [hdisk]
    exact Disk.readText_of_enter (by decide) rfl (by decide)
  exact ⟨prompt, prepare_of_source hmodel
    (Source.resolve_of_file (by decide +kernel) (by decide +kernel) htext) (by decide) hprompt⟩

end Invocation

/-! ### The gate -/

namespace Desk

open Licence Machine

variable {d : Desk} {i : Invocation} {m : Machine}

/-- The review comes to the gate: the limiter is asked about it. -/
def AsksLimiter (d : Desk) (i : Invocation) (m : Machine) : Prop :=
  ∃ es, ((d.run i).run m).2.journal = m.journal ++ es ∧
    ∃ now decision, Event.decided now decision ∈ es

/-- A review that is not prepared ends there. -/
lemma run_of_error {f : Failure} (h : ((i.prepare d.config).run.run m).1 = .error f) :
    (d.run i).run m = ((.error f, d), ((i.prepare d.config).run.run m).2) := by
  obtain ⟨r, m', hr⟩ : ∃ r m', (i.prepare d.config).run.run m = (r, m') := ⟨_, _, rfl⟩
  rw [hr] at h ⊢
  obtain rfl : r = .error f := h
  rw [run, StateT.run_bind, hr]
  rfl

/-- A review that cannot be prepared does not come to the gate. -/
lemma not_asksLimiter_of_error {f : Failure}
    (h : ((i.prepare d.config).run.run m).1 = .error f) : ¬d.AsksLimiter i m := by
  rintro ⟨es, hjournal, now, decision, hmem⟩
  obtain ⟨t, hafter, hpermits⟩ := (i.prepare_reading d.config).allows m
  change ((i.prepare d.config).run.run m).2 = m.after t at hafter
  rw [run_of_error h, hafter] at hjournal
  obtain rfl : t.events = es := List.append_cancel_left hjournal
  exact hpermits.events _ hmem

/-- A review that is prepared is submitted, which begins with asking the limiter. -/
lemma asksLimiter_of_ok {p : Prepared} (h : ((i.prepare d.config).run.run m).1 = .ok p) :
    d.AsksLimiter i m := by
  obtain ⟨r, m', hr⟩ : ∃ r m', (i.prepare d.config).run.run m = (r, m') := ⟨_, _, rfl⟩
  obtain ⟨t, hafter, -⟩ := (i.prepare_reading d.config).allows m
  change ((i.prepare d.config).run.run m).2 = m.after t at hafter
  rw [hr] at h hafter
  obtain rfl : r = .ok p := h
  obtain rfl : m' = m.after t := hafter
  let s : Submission := ⟨d, m.after t, p, i⟩
  have hrun : (d.run i).run m = s.outcome := by
    rw [run, StateT.run_bind, hr]
    rfl
  obtain ⟨hends, -, t', hafter'⟩ := s.ends
  obtain ⟨decision, hmem⟩ := hends.decided_mem
  rw [Submission.events, hafter', since_after] at hmem
  refine ⟨t.events ++ t'.events, ?_, _, decision,
    List.mem_append_right _ (List.mem_of_mem_filter hmem)⟩
  have hlast : ((d.run i).run m).2 = (m.after t).after t' := by rw [hrun]; exact hafter'
  rw [hlast, ← List.append_assoc]
  rfl

/-- Where the model is unknown, nothing is done. -/
lemma run_of_unknown {f : Failure} (h : d.config.resolve i.model = .error f) :
    d.run i = pure (.error f, d) := by
  funext m
  have hprepare : (i.prepare d.config).run.run m = (.error f, m) := by
    have hresolve : (liftM (d.config.resolve i.model) : Command Model).run.run m =
        (.error f, m) := by
      rw [h]
      rfl
    exact Command.run_bind_of_error hresolve
  have hrun := run_of_error (d := d) (i := i) (m := m) (by rw [hprepare])
  rw [hprepare] at hrun
  exact hrun

/-- **A review is stopped before the gate exactly when an obstacle stands, and the first one that
stands is reported.**  Then the desk with its limiter is as it was, nothing is written or printed
and no model is asked; where the model is unknown, not even the machine is looked at. -/
theorem stopped_iff (d : Desk) (i : Invocation) (m : Machine) :
    (¬d.AsksLimiter i m ↔ ∃ o : Obstacle, o.stands d.config i m = true) ∧
    ∀ o, Obstacle.first? d.config i m = some o →
      ∃ f, ((d.run i).run m).1 = (.error f, d) ∧ o.Reports d.config i m f ∧
        reading.Allows m ((d.run i).run m).2 ∧
        (o = .model → d.run i = pure (.error f, d)) := by
  have hresult := Obstacle.prepare_result d.config i m
  cases hfirst : Obstacle.first? d.config i m with
  | none =>
      rw [hfirst] at hresult
      obtain ⟨p, hok⟩ := hresult
      have hnone : ∀ o : Obstacle, o.stands d.config i m = false := by
        intro o
        have hall : o ∈ Obstacle.all := by cases o <;> decide
        simpa using List.find?_eq_none.mp hfirst o hall
      refine ⟨⟨fun hnot => absurd (asksLimiter_of_ok hok) hnot, ?_⟩, nofun⟩
      rintro ⟨o, ho⟩
      rw [hnone o] at ho
      cases ho
  | some o =>
      rw [hfirst] at hresult
      obtain ⟨f, herror, hreports⟩ := hresult
      have hstands : o.stands d.config i m = true := List.find?_some hfirst
      refine ⟨⟨fun _ => ⟨o, hstands⟩, fun _ => not_asksLimiter_of_error herror⟩, ?_⟩
      rintro _ ⟨⟩
      refine ⟨f, by rw [run_of_error herror], hreports, ?_, ?_⟩
      · rw [run_of_error herror]
        exact (i.prepare_reading d.config).allows m
      · rintro rfl
        obtain ⟨found, -, hno⟩ | ⟨f', hunknown, -, hf'⟩ := Obstacle.model_cases d.config i m
        · rw [hstands] at hno
          cases hno
        · obtain rfl : f = f' := hreports.trans hf'.symm
          exact run_of_unknown hunknown

end Desk

end CodeReview

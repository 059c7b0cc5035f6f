import CodeReview.Model.Service
import CodeReview.Proofs.Http.Alike

/-!
# What can be told of a key

A question is put to a model twice, with two keys, and the network treats requests alike that are
the same but for the key.  `Question.Tells` says how the two results may differ, and that the same
is shown; a question is discreet when the results are the same.

* `discreet_iff`: a question is discreet unless its model has the key in its address and that
  address can be read; with keys that take the same room in an address, the results of any question
  are the same or faults of one kind with texts that are the same but for the key.
* `not_discreet_offline`: a model that has the key in its address, and no server.
-/

namespace CodeReview

open CodeReview.Http CodeReview.Text

/-! ### Requests that show a key -/

namespace Dialect

variable {a b : String} {U : Url → Url → Prop}

/-- The headers that show a key differ in the key only. -/
lemma keyHeaders_alike (a b : String) (d : Dialect) :
    HeadersAlike a b (d.keyHeaders a) (d.keyHeaders b) := by
  cases d with
  | completions => exact .cons ⟨rfl, .inr ⟨"Bearer ", "", by simp, by simp⟩⟩ (HeadersAlike.refl _)
  | messages => exact .cons ⟨rfl, .inr ⟨"", "", by simp, by simp⟩⟩ (HeadersAlike.refl _)
  | contents => exact .refl _

/-- Only one format shows the key in the address. -/
lemma keyed_eq {d : Dialect} (hd : d ≠ .contents) (key : String) (url : Url) :
    d.keyed key url = url := by
  cases d with
  | completions => rfl
  | messages => rfl
  | contents => exact absurd rfl hd

/-- The addresses that show a key differ in the key only, as a form has it. -/
lemma keyed_alike (a b : String) (url : Url) (d : Dialect) :
    Url.Alike (Url.formEncode a) (Url.formEncode b) (d.keyed a url) (d.keyed b url) := by
  by_cases hd : d = .contents
  · subst hd
    refine ⟨rfl, .inl ⟨.some ?_, rfl⟩⟩
    have hfield : SameBut (Url.formEncode a) (Url.formEncode b) ("key=" ++ Url.formEncode a)
        ("key=" ++ Url.formEncode b) := .inr ⟨"key=", "", by simp, by simp⟩
    cases url.query with
    | none => exact hfield
    | some query =>
        by_cases hempty : query = ""
        · subst hempty
          exact hfield
        · simp only
          exact hfield.append_left (query ++ "&")
  · rw [keyed_eq hd, keyed_eq hd]
    exact .refl url

/-- The requests of a question with two keys. -/
lemma request_alike (hU : Indistinct U) (ha : isHeaderValue a = true) (hb : isHeaderValue b = true)
    (d : Dialect) (base : String) (q : Question)
    (hkeyed : ∀ url, Http.address (d.address base q.model) = .ok url →
      U (d.keyed a url) (d.keyed b url)) :
    Likewise (Fault.Alike U) (SentAlike a b U) (d.request base a q) (d.request base b q) := by
  unfold request
  cases haddress : Http.address (d.address base q.model) with
  | error e =>
      refine .error ?_
      cases e with
      | unbuildable url => exact .unbuildable (rel_self hU.refl url)
      | unsent url => exact .unsent (hU.refl url)
      | late url => exact .late (hU.refl url)
      | astray url => exact .astray (hU.refl url)
      | unreadable => exact .unreadable
  | ok url =>
      exact build_alike hU ha hb (hkeyed url haddress) (keyHeaders_alike a b d) _ _

/-- Remarks on an answer are the same on twins. -/
lemma remarks_agree {R : Request → Request → Prop} (m : Model) (answer : Answer) (d : Dialect) :
    Act.Agree R Eq (d.remarks m answer) (d.remarks m answer) := by
  unfold remarks
  cases d with
  | completions =>
      cases answer.usage with
      | none => exact Act.agree_pure rfl
      | some counts => exact Act.agree_log _ _
  | messages =>
      have hcut : ∀ text, Act.Agree R Eq
          (if answer.cutOff then Act.log .warn text else pure ())
          (if answer.cutOff then Act.log .warn text else pure ()) :=
        fun _ => Act.Agree.ite (Act.agree_log _ _) (Act.agree_pure rfl)
      cases answer.usage with
      | none => exact hcut _
      | some counts => exact (Act.agree_log _ _).bind fun _ _ _ => hcut _
  | contents => exact Act.agree_pure rfl

end Dialect

namespace Question

variable {a b : String} {U : Url → Url → Prop} {R : Request → Request → Prop}

/-- What is read of a response is the same on twins. -/
lemma readAnswer_agree (q : Question) (r : Response) :
    Act.Agree R Eq (q.readAnswer r) (q.readAnswer r) := by
  unfold readAnswer
  refine Act.Agree.ite (Act.agree_pure rfl) ?_
  generalize (if r.whole then
    (String.fromUTF8? ⟨r.body.toArray⟩).bind q.model.provider.dialect.read? else none) = answer
  cases answer with
  | none => exact Act.agree_pure rfl
  | some answer => exact (Dialect.remarks_agree _ _ _).bind fun _ _ _ => Act.agree_pure rfl

/-- Send a request, if one was built, and read the answer. -/
def exchange (timeout : Duration) (request : Except Fault Request) (q : Question) :
    Act (Except ServiceFault String) := do
  match request with
  | .error e => pure (.error (.ofExchange e))
  | .ok request =>
    match ← send timeout request with
    | .error e => pure (.error (.ofExchange e))
    | .ok response => q.readAnswer response

/-- Ask with a key at the base of an endpoint. -/
def askWith (timeout : Duration) (base key : String) (q : Question) :
    Act (Except ServiceFault String) := do
  Act.log .debug ("🔌 Routing '" ++ q.model.name ++ "' through " ++ q.model.provider.name)
  Act.log .debug ("📦 Request model: " ++ q.model.name ++ " -> " ++
    q.model.provider.dialect.address base q.model)
  q.exchange timeout (q.model.provider.dialect.request base key q)

/-- With an address and a key a question is asked. -/
lemma askNetwork_run {q : Question} {m : Machine} {base key : String} (timeout : Duration)
    (hbase : q.model.base = .ok base)
    (hkey : q.model.key (m.setting? q.model.keyName) = .ok key) :
    (q.askNetwork timeout).run m = (q.askWith timeout base key).run m := by
  unfold askNetwork askWith
  simp only [hbase]
  rw [StateT.run_bind, StateT.run_get, pure_bind]
  simp only [hkey]
  rfl

/-- Without an address nothing is done. -/
lemma askNetwork_run_of_no_base {q : Question} {e : ServiceFault} (timeout : Duration)
    (hbase : q.model.base = .error e) (m : Machine) :
    (q.askNetwork timeout).run m = (.error e, m) := by
  unfold askNetwork
  simp only [hbase]
  rfl

/-- Without a key nothing is done. -/
lemma askNetwork_run_of_no_key {q : Question} {m : Machine} {base : String} {e : ServiceFault}
    (timeout : Duration) (hbase : q.model.base = .ok base)
    (hkey : q.model.key (m.setting? q.model.keyName) = .error e) :
    (q.askNetwork timeout).run m = (.error e, m) := by
  unfold askNetwork
  simp only [hbase]
  rw [StateT.run_bind, StateT.run_get, pure_bind]
  simp only [hkey]
  rfl

/-- The same result, or faults of exchanges that were alike. -/
def ResultsAlike (U : Url → Url → Prop) (x y : Except ServiceFault String) : Prop :=
  x = y ∨ ∃ f g, Fault.Alike U f g ∧ x = .error (.ofExchange f) ∧ y = .error (.ofExchange g)

/-- Requests that are alike come to results that are alike. -/
lemma exchange_agree (hU : Indistinct U) (timeout : Duration) (q : Question)
    {request request' : Except Fault Request}
    (h : Likewise (Fault.Alike U) (SentAlike a b U) request request') :
    Act.Agree (Request.Alike a b U) (ResultsAlike U) (q.exchange timeout request)
      (q.exchange timeout request') := by
  cases h with
  | error he => exact Act.agree_pure (.inr ⟨_, _, he, rfl, rfl⟩)
  | ok hr =>
      refine (send_agree hU hr timeout).bind ?_
      intro x y hxy
      cases hxy with
      | error he => exact Act.agree_pure (.inr ⟨_, _, he, rfl, rfl⟩)
      | ok hanswer =>
          subst hanswer
          exact (readAnswer_agree q _).mono fun _ _ => .inl

/-- A question that is asked with either key comes to results that are alike, if the requests for it
are. -/
lemma askWith_agree (hU : Indistinct U) (timeout : Duration) (base : String) {q : Question}
    (h : Likewise (Fault.Alike U) (SentAlike a b U) (q.model.provider.dialect.request base a q)
      (q.model.provider.dialect.request base b q)) :
    Act.Agree (Request.Alike a b U) (ResultsAlike U) (q.askWith timeout base a)
      (q.askWith timeout base b) := by
  refine (Act.agree_log _ _).bind fun _ _ _ => (Act.agree_log _ _).bind fun _ _ _ => ?_
  exact exchange_agree hU timeout q h

/-- Where answers are not remarked upon, an exchange shows nothing of itself. -/
lemma exchange_unseen {q : Question} (hd : q.model.provider.dialect = .contents)
    (timeout : Duration) (request : Except Fault Request) :
    (q.exchange timeout request).Keeps Machine.Unseen := by
  cases request with
  | error e => exact Act.keeps_pure _
  | ok request =>
      refine (send_unseen timeout request).bind ?_
      intro answer
      cases answer with
      | error e => exact Act.keeps_pure _
      | ok r =>
          unfold readAnswer
          rw [hd]
          refine Act.Keeps.ite (Act.keeps_pure _) ?_
          generalize (if r.whole then
            (String.fromUTF8? ⟨r.body.toArray⟩).bind Dialect.contents.read? else none) = answer
          cases answer with
          | none => exact Act.keeps_pure _
          | some answer => exact Act.keeps_pure _

/-- A key that goes into the address is in no line of the log. -/
lemma askWith_shows {q : Question} (hd : q.model.provider.dialect = .contents) (timeout : Duration)
    (base key : String) (m : Machine) :
    ((q.askWith timeout base key).run m).2.visible =
      ((m.note (.logged .debug
        ("🔌 Routing '" ++ q.model.name ++ "' through " ++ q.model.provider.name))).note
        (.logged .debug ("📦 Request model: " ++ q.model.name ++ " -> " ++
          q.model.provider.dialect.address base q.model))).visible :=
  exchange_unseen hd timeout _ _

/-! ### Two keys -/

/-- What two keys may lead to: whatever two keys a question is asked with, the results are related,
and the same is shown, where the network treats requests alike that are the same but for the
key. -/
def Tells (q : Question)
    (V : String → String → Except ServiceFault String → Except ServiceFault String → Prop) :
    Prop :=
  ∀ (timeout : Duration) (a b : String) (m m' : Machine),
    q.model.key (m.setting? q.model.keyName) = .ok a →
    q.model.key (m'.setting? q.model.keyName) = .ok b →
    isHeaderValue a = true → isHeaderValue b = true →
    m.Twins (Request.Alike a b (Url.Alike (Url.formEncode a) (Url.formEncode b))) m' →
    V a b ((q.askNetwork timeout).run m).1 ((q.askNetwork timeout).run m').1 ∧
      ((q.askNetwork timeout).run m).2.visible = ((q.askNetwork timeout).run m').2.visible

/-- Neither the result nor what is shown depends on the key. -/
def Discreet (q : Question) : Prop := q.Tells fun _ _ => Eq

/-- The key goes into the address, which can be read. -/
def KeyInAddress (q : Question) : Prop :=
  q.model.provider.dialect = .contents ∧ ∃ base url,
    q.model.base = .ok base ∧ Http.address (Dialect.contents.address base q.model) = .ok url

/-- Faults that are alike about the same address are the same. -/
lemma fault_eq_of_alike {f g : Fault} (h : Fault.Alike Eq f g) : f = g := by
  cases h with
  | unbuildable h =>
      cases h with
      | none => rfl
      | some h => rw [h]
  | unsent h => rw [h]
  | late h => rw [h]
  | astray h => rw [h]
  | unreadable => rfl

/-- Where the key does not go into the address, no request differs in its address. -/
lemma discreet_of_not_keyInAddress {q : Question} (h : ¬q.KeyInAddress) : q.Discreet := by
  intro timeout a b m m' hkey hkey' ha hb htwins
  cases hbase : q.model.base with
  | error e =>
      rw [askNetwork_run_of_no_base timeout hbase, askNetwork_run_of_no_base timeout hbase]
      exact ⟨rfl, htwins.visible⟩
  | ok base =>
      rw [askNetwork_run timeout hbase hkey, askNetwork_run timeout hbase hkey']
      have hkeyed : ∀ url,
          Http.address (q.model.provider.dialect.address base q.model) = .ok url →
          q.model.provider.dialect.keyed a url = q.model.provider.dialect.keyed b url := by
        intro url hurl
        have hd : q.model.provider.dialect ≠ .contents := by
          intro hd
          rw [hd] at hurl
          exact h ⟨hd, base, url, hbase, hurl⟩
        rw [Dialect.keyed_eq hd, Dialect.keyed_eq hd]
      have hrequest := Dialect.request_alike indistinct_eq ha hb _ base q hkeyed
      have htwins' : m.Twins (Request.Alike a b Eq) m' := by
        refine htwins.mono ?_
        intro r r' hr
        exact ⟨hr.method, hr.url ▸ .refl _, hr.headers, hr.body⟩
      obtain ⟨hresult, hleft⟩ := askWith_agree indistinct_eq timeout base hrequest m m' htwins'
      refine ⟨?_, hleft.visible⟩
      obtain heq | ⟨f, g, hfault, hf, hg⟩ := hresult
      · exact heq
      · rw [hf, hg, fault_eq_of_alike hfault]

/-! ### Keys in addresses -/

/-- The same result, or faults of one kind with texts that are the same but for the key. -/
def SameButForKey (a b : String) (x y : Except ServiceFault String) : Prop :=
  x = y ∨ ∃ f g, x = .error f ∧ y = .error g ∧ f.kind = g.kind ∧
    SameBut (Url.formEncode a) (Url.formEncode b) f.reason g.reason

/-- What is said about addresses that differ in a word differs in that word only. -/
lemma about_sameBut {u v : Url} (h : Url.Alike a b u v) (text : String) :
    SameBut a b (about text u) (about text v) :=
  ((h.text.append_left _).append_right _)

/-- Faults about addresses that are alike, in the words of the service. -/
lemma ofExchange_alike {f g : Fault} (h : Fault.Alike (Url.Alike a b) f g) :
    (ServiceFault.ofExchange f).kind = (ServiceFault.ofExchange g).kind ∧
      SameBut a b (ServiceFault.ofExchange f).reason (ServiceFault.ofExchange g).reason := by
  cases h with
  | unbuildable h =>
      refine ⟨rfl, ?_⟩
      cases h with
      | none => exact .inl rfl
      | some h => exact about_sameBut h _
  | unsent h => exact ⟨rfl, about_sameBut h _⟩
  | late h => exact ⟨rfl, about_sameBut h _⟩
  | astray h => exact ⟨rfl, about_sameBut h _⟩
  | unreadable => exact ⟨rfl, .inl rfl⟩

/-- Keys that take the same room in an address are told apart by nothing else. -/
lemma tells_sameButForKey (q : Question) :
    q.Tells fun a b x y =>
      (Url.formEncode a).utf8ByteSize = (Url.formEncode b).utf8ByteSize →
        SameButForKey a b x y := by
  intro timeout a b m m' hkey hkey' ha hb htwins
  by_cases haddress : q.KeyInAddress
  · obtain ⟨hd, base, url, hbase, hurl⟩ := haddress
    rw [askNetwork_run timeout hbase hkey, askNetwork_run timeout hbase hkey']
    constructor
    · intro hsize
      have hU := indistinct_alike (Url.isFormWord_formEncode a) (Url.isFormWord_formEncode b) hsize
      have hrequest := Dialect.request_alike hU ha hb q.model.provider.dialect base q
        fun url _ => Dialect.keyed_alike a b url _
      obtain hsame | ⟨f, g, hfault, hf, hg⟩ :=
        (askWith_agree hU timeout base hrequest m m' htwins).1
      · exact .inl hsame
      · exact .inr ⟨_, _, hf, hg, ofExchange_alike hfault⟩
    · rw [askWith_shows hd, askWith_shows hd]
      exact ((htwins.note _).note _).visible
  · obtain ⟨hsame, hvisible⟩ :=
      discreet_of_not_keyInAddress haddress timeout a b m m' hkey hkey' ha hb htwins
    exact ⟨fun _ => .inl hsame, hvisible⟩

end Question

/-! ### No server -/

namespace Http

/-- Whether a header takes a value is told by its characters one by one. -/
lemma isHeaderValue_ofList (s : List Char) : isHeaderValue (String.ofList s) =
    s.all fun c => c == '\t' || (0x20 ≤ c.toNat && c.toNat != 0x7F) := by
  rw [isHeaderValue, String.toList_ofList]

/-- A header takes every character of the base with 64 digits. -/
lemma isHeaderValue_base64Char (n : ℕ) : isHeaderValue (String.ofList [base64Char n]) = true := by
  rw [isHeaderValue_ofList]
  unfold base64Char
  split_ifs with hupper hlower hdigit
  · interval_cases n <;> rfl
  · interval_cases n <;> rfl
  · interval_cases n <;> rfl
  · rfl
  · rfl

/-- A header takes everything that is written in the base with 64 digits. -/
lemma isHeaderValue_base64 (bytes : List UInt8) :
    isHeaderValue (String.ofList (base64 bytes)) = true := by
  have hchar : ∀ n, (fun c : Char => c == '\t' || (0x20 ≤ c.toNat && c.toNat != 0x7F))
      (base64Char n) = true := by
    intro n
    have hone := isHeaderValue_base64Char n
    rwa [isHeaderValue_ofList, List.all_cons, List.all_nil, Bool.and_true] at hone
  rw [isHeaderValue_ofList]
  fun_induction base64 bytes with
  | case1 => rfl
  | case2 a n => simp only [List.all_cons, hchar]; rfl
  | case3 a b n => simp only [List.all_cons, hchar]; rfl
  | case4 a b c rest n ih => simp only [List.all_cons, hchar, ih]; rfl

/-- User name and password can be shown in a header. -/
lemma isHeaderValue_credentials {u : Url} {c : String} (h : credentials? u = some c) :
    isHeaderValue c = true := by
  unfold credentials? at h
  obtain ⟨name, -, h⟩ := Option.bind_eq_some_iff.mp h
  simp only at h
  split_ifs at h
  rw [← Option.some.inj h, isHeaderValue_append, isHeaderValue_base64, Bool.and_true]
  decide

end Http

/-- A machine that reaches no server. -/
def Machine.offline (environment : List (String × List UInt8)) (journal : List Event) : Machine :=
  { Machine.bare with environment, journal }

/-- Machines that reach no server are twins, whatever their environments. -/
lemma Machine.offline_twins (R : Request → Request → Prop) (e e' : List (String × List UInt8)) :
    (offline e []).Twins R (offline e' []) := ⟨fun _ _ _ _ => rfl, rfl, rfl⟩

namespace Model

/-- A key that is one visible character is found in the environment. -/
lemma key_offline (model : Model) {k : UInt8} {key : String}
    (htext : String.fromUTF8? ⟨#[k]⟩ = some key) (hblank : allBlank key = false)
    (htrim : trim key = key) :
    model.key ((Machine.offline [(model.keyName, [k])] []).setting? model.keyName) = .ok key := by
  have hset : (Machine.offline [(model.keyName, [k])] []).setting? model.keyName = some key := by
    simp [Machine.setting?, Machine.offline, htext]
  rw [hset, Model.key, Option.filter_some, hblank]
  simp only [Bool.not_false, if_true, htrim]

/-- The key may be the one letter. -/
lemma key_a (model : Model) :
    model.key ((Machine.offline [(model.keyName, [97])] []).setting? model.keyName) = .ok "a" :=
  model.key_offline (by decide) (by decide) (by decide)

/-- The key may be another letter. -/
lemma key_b (model : Model) :
    model.key ((Machine.offline [(model.keyName, [98])] []).setting? model.keyName) = .ok "b" :=
  model.key_offline (by decide) (by decide) (by decide)

end Model

namespace Dialect

/-- The text of an address with a key in its query. -/
lemma keyed_text (url : Url) :
    ∃ before after, ∀ key,
      (contents.keyed key url).text = before ++ Url.formEncode key ++ after := by
  obtain ⟨first, hfirst⟩ : ∃ first, ∀ key,
      (contents.keyed key url).query = some (first ++ Url.formEncode key) := by
    cases hquery : url.query with
    | none => exact ⟨"key=", fun key => by simp [keyed, hquery]⟩
    | some query =>
        by_cases hempty : query = ""
        · exact ⟨"key=", fun key => by simp [keyed, hquery, hempty]⟩
        · refine ⟨query ++ "&" ++ "key=", fun key => ?_⟩
          have hkeyed : (contents.keyed key url).query =
              some (query ++ "&" ++ ("key=" ++ Url.formEncode key)) := by
            simp only [keyed, hquery]
          rw [hkeyed, ← String.append_assoc]
  refine ⟨url.scheme ++ ":" ++ url.authority ++ url.path.text ++ ("?" ++ first),
    url.fragment.elim "" ("#" ++ ·), fun key => ?_⟩
  have hauthority : (contents.keyed key url).authority = url.authority := rfl
  rw [Url.text, hfirst, hauthority]
  simp only [Option.elim_some, String.append_assoc]
  rfl

/-- Requests with a key in the address are the same in everything else. -/
lemma request_eq_assemble {q : Question} {base : String} {url : Url}
    (hurl : Http.address (contents.address base q.model) = .ok url) :
    ∃ url' headers, headers.all (isHeaderValue ·.2) = true ∧ ∀ key,
      contents.request base key q = assemble .post (contents.keyed key url') headers
        (some (contents.body q.prompt q.source q.model).write) := by
  have hrequest : ∀ key, contents.request base key q = build .post (contents.keyed key url) []
      (some (contents.body q.prompt q.source q.model).write) := by
    intro key
    unfold request
    rw [hurl]
    rfl
  have hcredentials : ∀ key, credentials? (contents.keyed key url) = credentials? url :=
    fun _ => rfl
  cases hc : credentials? url with
  | none =>
      refine ⟨url, [], rfl, fun key => ?_⟩
      rw [hrequest, build_eq_assemble, hcredentials, hc]
  | some c =>
      refine ⟨bare url, [("authorization", c)], ?_, fun key => ?_⟩
      · simp [isHeaderValue_credentials hc]
      · rw [hrequest, build_eq_assemble, hcredentials, hc]
        rfl

end Dialect

namespace Question

/-- Without a server an exchange fails, over the request or over the way to its address. -/
lemma exchange_offline {headers : List (String × String)}
    (hheaders : headers.all (isHeaderValue ·.2) = true) (timeout : Duration) (q : Question)
    (u : Url) (body : Option String) (e : List (String × List UInt8)) (journal : List Event) :
    ((q.exchange timeout (assemble .post u headers body)).run (.offline e journal)).1 =
      .error (.ofExchange
        (if u.isWeb && isSendable u then .unsent u else .unbuildable (some u))) := by
  unfold assemble
  rw [hheaders]
  by_cases hfit : (u.isWeb && isSendable u) = true
  · rw [Bool.and_eq_true] at hfit
    simp only [hfit.1, hfit.2]
    rfl
  · have hunfit : (!u.isWeb || !isSendable u) = true := by
      rw [← Bool.not_and, Bool.not_eq_true']
      simpa using hfit
    simp only [hunfit, hfit]
    rfl

/-- A fault about an address names it. -/
lemma text_eq_of_fault {u v : Url} {c : Bool}
    (h : (if c then Fault.unsent u else .unbuildable (some u)).message =
      (if c then Fault.unsent v else .unbuildable (some v)).message) : u.text = v.text := by
  have habout : ∀ {text : String}, about text u = about text v → u.text = v.text := by
    intro text htext
    unfold about at htext
    simpa [← String.toList_inj, String.toList_append] using htext
  cases c with
  | true => exact habout h
  | false => exact habout h

/-- What comes of a key in an address where no server is reached. -/
lemma askNetwork_offline {q : Question} (h : q.KeyInAddress) :
    ∃ url : Url, ∀ (timeout : Duration) (key : String) (e : List (String × List UInt8)),
      q.model.key ((Machine.offline e []).setting? q.model.keyName) = .ok key →
      ((q.askNetwork timeout).run (.offline e [])).1 = .error (.ofExchange
        (let u := Dialect.contents.keyed key url
        if u.isWeb && isSendable u then .unsent u else .unbuildable (some u))) := by
  obtain ⟨hd, base, url, hbase, hurl⟩ := h
  obtain ⟨url', headers, hheaders, hrequest⟩ := Dialect.request_eq_assemble hurl
  refine ⟨url', ?_⟩
  intro timeout key e hkey
  rw [askNetwork_run timeout hbase hkey]
  unfold askWith
  rw [hd, hrequest]
  exact exchange_offline hheaders timeout q _ _ e _

/-- Without a server, a key in the address is in the text of the fault. -/
lemma not_discreet_of_keyInAddress {q : Question} (h : q.KeyInAddress) : ¬q.Discreet := by
  intro hdiscreet
  obtain ⟨url, hanswer⟩ := askNetwork_offline h
  have ha := Model.key_a q.model
  have hb := Model.key_b q.model
  have hsame := (hdiscreet 0 "a" "b" _ _ ha hb (by decide) (by decide)
    (Machine.offline_twins _ _ _)).1
  rw [hanswer 0 "a" _ ha, hanswer 0 "b" _ hb] at hsame
  -- the two keys take the same room, so what becomes of the requests is the same
  have hU := indistinct_alike (Url.isFormWord_formEncode "a") (Url.isFormWord_formEncode "b")
    (by decide +kernel)
  have hkeyed := Dialect.keyed_alike "a" "b" url .contents
  have hfault := congrArg ServiceFault.reason (Except.error.inj hsame)
  simp only [hU.isWeb hkeyed, hU.sendable hkeyed] at hfault
  have htext := text_eq_of_fault hfault
  obtain ⟨before, after, hkeyedText⟩ := Dialect.keyed_text url
  rw [hkeyedText, hkeyedText] at htext
  have hword : Url.formEncode "a" = Url.formEncode "b" := by
    simpa [← String.toList_inj, String.toList_append] using htext
  exact absurd hword (by decide +kernel)

/-- **A key is told by nothing but an address.**  Where a model has its key in an address that can
be read, some server, or none, makes a question tell which key it was asked with; every other
question is discreet.  And keys that take the same room in an address are told by the address
alone. -/
theorem discreet_iff (q : Question) :
    (q.Discreet ↔ ¬q.KeyInAddress) ∧
      q.Tells fun a b x y =>
        (Url.formEncode a).utf8ByteSize = (Url.formEncode b).utf8ByteSize →
          SameButForKey a b x y := by
  refine ⟨⟨?_, discreet_of_not_keyInAddress⟩, tells_sameButForKey q⟩
  intro hdiscreet haddress
  exact not_discreet_of_keyInAddress haddress hdiscreet

/-- A key in a header, and no server. -/
theorem result_offline_eq :
    let q : Question := ⟨"Explain", "x", .ofName "claude-3-5-sonnet" .anthropic⟩
    ((q.askNetwork 0).run (.offline [("ANTHROPIC_API_KEY", [97])] [])).1 =
      ((q.askNetwork 0).run (.offline [("ANTHROPIC_API_KEY", [98])] [])).1 := by
  intro q
  have hdiscreet : q.Discreet := by
    refine (discreet_iff q).1.mpr ?_
    rintro ⟨hd, -⟩
    cases hd
  exact (hdiscreet 0 "a" "b" _ _ q.model.key_a q.model.key_b (by decide)
    (by decide) (Machine.offline_twins _ _ _)).1

/-- **Two keys in an address, and no server**: the text of the fault tells which key it was. -/
theorem not_discreet_offline :
    let q : Question := ⟨"Explain", "x",
      { Model.ofName "gemini-1.5-pro" .gemini with apiBase := some "http://127.0.0.1:9" }⟩
    ((q.askNetwork 0).run (.offline [("GEMINI_API_KEY", [97])] [])).1 = .error ⟨.network,
        "error sending request for url " ++
          "(http://127.0.0.1:9/models/gemini-1.5-pro:generateContent?key=a)"⟩ ∧
      ((q.askNetwork 0).run (.offline [("GEMINI_API_KEY", [98])] [])).1 = .error ⟨.network,
        "error sending request for url " ++
          "(http://127.0.0.1:9/models/gemini-1.5-pro:generateContent?key=b)"⟩ ∧
      ¬q.Discreet := by
  intro q
  have ha : ((q.askNetwork 0).run (.offline [("GEMINI_API_KEY", [97])] [])).1 = .error ⟨.network,
      "error sending request for url " ++
        "(http://127.0.0.1:9/models/gemini-1.5-pro:generateContent?key=a)"⟩ := by decide +kernel
  have hb : ((q.askNetwork 0).run (.offline [("GEMINI_API_KEY", [98])] [])).1 = .error ⟨.network,
      "error sending request for url " ++
        "(http://127.0.0.1:9/models/gemini-1.5-pro:generateContent?key=b)"⟩ := by decide +kernel
  refine ⟨ha, hb, ?_⟩
  intro hdiscreet
  have hsame := (hdiscreet 0 "a" "b" _ _ q.model.key_a q.model.key_b (by decide)
    (by decide) (Machine.offline_twins _ _ _)).1
  rw [show q.model.keyName = "GEMINI_API_KEY" from rfl, ha, hb] at hsame
  exact absurd hsame (by decide)

end Question

end CodeReview

import CodeReview.Proofs.Json.RoundTrip
import CodeReview.Proofs.Model.Discretion
import CodeReview.Proofs.Model.Format
import CodeReview.Proofs.Review.Submission

/-!
# What becomes of the texts in a response

`Response.Carries` says that a response grants what was asked and which texts its body carries, and
`Question.Receives` that it is what comes back for a question.  A review whose model gives such a
response ends with the texts put together, delivered as they are, unless they are blank: then it
fails, and nothing is printed or stored (`Submission.ends_of_carries`).
-/

namespace CodeReview

open CodeReview.Answer CodeReview.Http CodeReview.Json CodeReview.Text

/-- A response that grants what was asked, with the texts that its body carries. -/
structure Http.Response.Carries (r : Response) (d : Dialect) (texts : List String) : Prop where
  success : r.isSuccess = true
  whole : r.whole = true
  body : ∃ text v, String.fromUTF8? ⟨r.body.toArray⟩ = some text ∧ Json.parse? text = some v ∧
    d.Carries v texts

/-- The written form of an answer may be the body of a response. -/
lemma Http.Response.carries_of_write {r : Response} {d : Dialect} {v : Value} {texts : List String}
    (hsuccess : r.isSuccess = true) (hwhole : r.whole = true) (hbody : r.body = bytes v.write)
    (hsound : v.isSound = true) (h : d.Carries v texts) : r.Carries d texts := by
  refine ⟨hsuccess, hwhole, v.write, v, ?_, parse?_write v hsound, h⟩
  rw [hbody, fromUTF8?_bytes]

namespace Question

variable {q : Question} {m : Machine} {r : Response} {timeout : Duration} {texts : List String}

/-- The question is put over the network, and this response comes back in time. -/
def Receives (timeout : Duration) (q : Question) (m : Machine) (r : Response) : Prop :=
  m.models = .network ∧ ∃ base key request, q.model.base = .ok base ∧
    q.model.key (m.setting? q.model.keyName) = .ok key ∧
    q.model.provider.dialect.request base key q = .ok request ∧
    ((send timeout request).run m).1 = .ok r

/-- A response that grants what was asked comes back if a server gives it in time. -/
lemma send_of_answered {request : Request} {delay : Duration}
    (hanswered : m.network m.requestsSent request = .answered delay r) (hdelay : delay < timeout)
    (hsuccess : r.isSuccess = true) : ((send timeout request).run m).1 = .ok r := by
  have hstays : r.target? request.url = none := by
    rw [Response.isSuccess, Bool.and_eq_true, decide_eq_true_eq, decide_eq_true_eq] at hsuccess
    have hstatus : [301, 302, 303, 307, 308].contains r.status = false := by
      simp only [List.contains_cons, List.contains_nil, Bool.or_false, Bool.or_eq_false_iff,
        beq_eq_false_iff_ne]
      omega
    rw [Response.target?, hstatus, if_neg Bool.false_ne_true]
  have honce : (sendOnce request).run m =
      (.answered delay r, m.note (.sent request (.answered delay r))) := by
    rw [← hanswered]
    rfl
  have hlate : ¬timeout ≤ delay := Nat.not_le.mpr hdelay
  rw [send, sendWithin.eq_def]
  simp only [maxRedirects, attempt]
  rw [Act.run_bind_of honce]
  simp only [hlate, if_false, hstays]
  rfl

/-- **The answer in a response that carries texts**: the texts put together, or that there is no
text. -/
lemma readAnswer_of_carries (h : r.Carries q.model.provider.dialect texts) (m : Machine) :
    ((q.readAnswer r).run m).1 = if allBlank (String.join texts)
      then .error ⟨.serialization, q.model.provider.dialect.emptyText⟩
      else .ok (String.join texts) := by
  obtain ⟨hsuccess, hwhole, text, v, htext, hparse, hcarries⟩ := h
  obtain ⟨a, hanswer, ha⟩ := Dialect.answer?_of_carries hcarries
  have hread : q.model.provider.dialect.read? text = some a := by
    rw [Dialect.read?, hparse, Option.bind_some, hanswer]
  rw [readAnswer]
  simp only [hsuccess, Bool.not_true, Bool.false_eq_true, if_false, hwhole, if_true, htext,
    Option.bind_some, hread]
  rcases hremarks : (q.model.provider.dialect.remarks q.model a).run m with ⟨⟨⟩, m'⟩
  rw [Act.run_bind_of hremarks, Answer.text?, ha]
  split_ifs <;> rfl

/-- A question is answered by what its response says. -/
lemma ask_of_receives (h : q.Receives timeout m r) :
    ∃ m', ((q.ask timeout).run m).1 = some ((q.readAnswer r).run m').1 := by
  obtain ⟨hmodels, base, key, request, hbase, hkey, hrequest, hsend⟩ := h
  obtain ⟨s, t, hask⟩ : ∃ s t, ((q.ask timeout).run m).1 = some ((q.exchange timeout
      (.ok request)).run (m.withJournal (m.journal ++
        [.consulted q, .logged .debug s, .logged .debug t]))).1 := by
    have hsource : (m.note (.consulted q)).models = .network := hmodels
    have hnetwork : ((q.ask timeout).run m).1 =
        some ((q.askNetwork timeout).run (m.note (.consulted q))).1 := by
      have hrun : (q.ask timeout).run m =
          (q.answerOn timeout (m.note (.consulted q))).run (m.note (.consulted q)) := rfl
      rw [hrun, answerOn, hsource]
      rfl
    rw [hnetwork, askNetwork_run (m := m.note (.consulted q)) timeout hbase hkey, askWith, hrequest]
    have hjournal : ∀ s t, m.journal ++ [.consulted q, .logged .debug s, .logged .debug t] =
        m.journal ++ [.consulted q] ++ [.logged .debug s] ++ [.logged .debug t] := by simp
    simp only [hjournal]
    exact ⟨_, _, rfl⟩
  -- what is noted before the request is sent makes no difference to what comes back
  have hcounts : m.CountsAs (m.journal ++
      [.consulted q, .logged .debug s, .logged .debug t]) :=
    m.countsAs_append (by simp [Event.isCounted])
  obtain ⟨a, trace, hleaves, -⟩ := send_reading timeout request m
  obtain rfl : a = .ok r := by rw [← hsend, hleaves.run_eq]
  rw [hask, exchange, Act.run_bind_of (hleaves _ hcounts)]
  exact ⟨_, rfl⟩

end Question

/-- A text that is to be printed is printed where the printer takes everything. -/
lemma Delivers.of_printer {m : Machine} {text : String} {output : Option String} {locator : String}
    {operation : Operation} {result : Except Failure Delivery} {events : List Event} {disk : Disk}
    (h : Delivers m text output locator operation result events disk) (houtput : output = none)
    (hprinter : m.printer = none) :
    result = .ok .printed ∧ events = [.printed (text ++ "\n")] ∧ disk = m.disk := by
  cases h with
  | printed => exact ⟨rfl, rfl, rfl⟩
  | unprinted _ hrefuses => cases hprinter.symm.trans hrefuses
  | saved hsome => cases houtput.symm.trans hsome
  | unsaved hsome => cases houtput.symm.trans hsome

namespace Submission

variable {s : Submission} {events : List Event} {result : Except Failure Delivery} {disk : Disk}

/-- An admitted submission whose model gave a text ends with its delivery. -/
lemma Ends.of_answered (h : s.Ends events result disk) (hdecision : s.decision = .allowed)
    {text : String} (hanswer : s.answer = some (.ok text)) :
    ∃ delivery, events = s.admission ++ delivery ∧ Delivers s.machine text s.invocation.output
      s.invocation.locator s.prepared.operation result delivery disk := by
  cases h with
  | denied hdenied => cases hdenied.symm.trans hdecision
  | cancelled _ hnone => cases hnone.symm.trans hanswer
  | refused _ hrefused => cases hrefused.symm.trans hanswer
  | answered _ hgiven hdelivers =>
      obtain rfl := Except.ok.inj (Option.some.inj (hgiven.symm.trans hanswer))
      exact ⟨_, rfl, hdelivers⟩

/-- An admitted submission whose model gave no text ends with nothing delivered. -/
lemma Ends.of_refused (h : s.Ends events result disk) (hdecision : s.decision = .allowed)
    {f : ServiceFault} (hanswer : s.answer = some (.error f)) :
    result = .error (Desk.refused s.prepared.model f) ∧ events = s.admission ∧
      disk = s.machine.disk := by
  cases h with
  | denied hdenied => cases hdenied.symm.trans hdecision
  | cancelled _ hnone => cases hnone.symm.trans hanswer
  | refused _ hrefused =>
      obtain rfl := Except.error.inj (Option.some.inj (hrefused.symm.trans hanswer))
      exact ⟨rfl, rfl, rfl⟩
  | answered _ hgiven => cases hgiven.symm.trans hanswer

/-- Admitting and asking print nothing. -/
lemma printed_not_mem_admission (text : String) : .printed text ∉ s.admission := by
  intro hmem
  have hnone := List.filterMap_eq_nil_iff.mp s.filterMap_admission _ hmem
  cases hnone

variable {r : Response} {texts : List String}

/-- **What a model says is delivered as it is.**  A review is admitted, and what comes back for its
question is an answer that carries texts.  Then the model's answer is these texts put together, in
their order and with all their blanks, and this text is what is printed, with a line feed, or the
whole content of the file; but where it is blank the review fails, nothing is printed, and the disk
stays as it was. -/
theorem ends_of_carries (s : Submission) (hdecision : s.decision = .allowed)
    (hreceives : s.prepared.question.Receives s.desk.config.requestTimeout s.machine r)
    (hcarries : r.Carries s.prepared.model.provider.dialect texts) :
    (allBlank (String.join texts) = false → s.answer = some (.ok (String.join texts)) ∧
      ∃ events, s.events = s.admission ++ events ∧
        Delivers s.machine (String.join texts) s.invocation.output s.invocation.locator
          s.prepared.operation s.result events s.after.disk) ∧
    (allBlank (String.join texts) = true →
      s.answer = some (.error ⟨.serialization, s.prepared.model.provider.dialect.emptyText⟩) ∧
      s.result = .error (.modelInvocation s.prepared.model.name s.prepared.model.provider.name
        ("Serialization Error: " ++ s.prepared.model.provider.dialect.emptyText)) ∧
      (∀ text, .printed text ∉ s.events) ∧ s.after.disk = s.machine.disk) := by
  obtain ⟨m', hask⟩ := Question.ask_of_receives hreceives
  rw [Question.readAnswer_of_carries hcarries] at hask
  constructor
  · intro htext
    have hanswer : s.answer = some (.ok (String.join texts)) := by
      rw [htext] at hask
      exact hask
    exact ⟨hanswer, s.ends.1.of_answered hdecision hanswer⟩
  · intro hblank
    have hanswer : s.answer =
        some (.error ⟨.serialization, s.prepared.model.provider.dialect.emptyText⟩) := by
      rw [hblank] at hask
      exact hask
    obtain ⟨hresult, hevents, hdisk⟩ := s.ends.1.of_refused hdecision hanswer
    refine ⟨hanswer, hresult, fun text => ?_, hdisk⟩
    rw [hevents]
    exact printed_not_mem_admission text

/-- A block of another kind and two text blocks with blanks at their ends, with keys that nobody
knows. -/
def mixedBlocks : List Value :=
  [.record [("type", .text "thinking"), ("thinking", .text "Hm.")],
    .record [("text", .text " Fine.\n"), ("citations", .null), ("type", .text "text")],
    .record [("type", .text "text"), ("text", .text " ")]]

/-- An answer with these blocks. -/
def mixedAnswer : Value :=
  .record [("id", .text "msg_1"), ("content", .array mixedBlocks),
    ("stop_reason", .text "end_turn")]

/-- The mixed answer carries its two texts. -/
lemma carries_mixedAnswer : Dialect.Carries .messages mixedAnswer [" Fine.\n", " "] := by
  have hfields : Gives [("content", some (.array mixedBlocks)),
      ("stop_reason", some (.text "end_turn")), ("usage", none)] mixedAnswer :=
    ⟨_, rfl, by simp, by simp⟩
  have hblocks : Listed IsBlock (some (.array mixedBlocks)) [none, some " Fine.\n", some " "] := by
    apply Listed.array
    refine .cons ?_ (.cons ?_ (.cons ?_ .nil))
    · have hgives : Gives [("type", some (.text "thinking")), ("text", none)]
          (.record [("type", .text "thinking"), ("thinking", .text "Hm.")]) :=
        ⟨_, rfl, by simp, by simp⟩
      exact .other hgives .absent (.inl (by decide))
    · exact .text ⟨_, rfl, by simp, by simp⟩
    · exact .text ⟨_, rfl, by simp, by simp⟩
  exact .messages hfields hblocks (.given rfl) .absent

/-- A review whose model gives that answer prints both texts with all their blanks. -/
theorem ends_of_carries_mixedAnswer :
    let model : Model := { Model.ofName "claude" .anthropic with
      apiBase := some "http://127.0.0.1:9" }
    let r : Response := ⟨200, none, none, bytes mixedAnswer.write, true⟩
    let s : Submission := ⟨.ofConfig (.ofModels "claude" [model] ⟨1, 60⟩ 60),
      { Machine.offline [("ANTHROPIC_API_KEY", [97])] [] with
        network := fun _ _ => .answered 5 r },
      ⟨.analyze, "python", none, "x", model, "Explain"⟩,
      ⟨.analyze, "a.py", none, none, none, none⟩⟩
    s.decision = .allowed ∧
      s.prepared.question.Receives s.desk.config.requestTimeout s.machine r ∧
      r.Carries s.prepared.model.provider.dialect [" Fine.\n", " "] ∧
      s.answer = some (.ok " Fine.\n ") ∧ s.result = .ok .printed ∧
      s.events = s.admission ++ [Event.printed " Fine.\n \n"] := by
  intro model r s
  have hdecision : s.decision = .allowed := by decide
  have hreceives : s.prepared.question.Receives s.desk.config.requestTimeout s.machine r := by
    have hbase : model.base = .ok "http://127.0.0.1:9" := by decide +kernel
    have hrequest : (Dialect.request .messages "http://127.0.0.1:9" "a"
        s.prepared.question).toOption.isSome = true := by decide +kernel
    cases hbuilt : Dialect.request .messages "http://127.0.0.1:9" "a" s.prepared.question with
    | error e =>
        rw [hbuilt] at hrequest
        cases hrequest
    | ok request =>
        exact ⟨rfl, _, "a", request, hbase, model.key_a, hbuilt,
          Question.send_of_answered rfl (by decide) rfl⟩
  have hbody : r.body = bytes mixedAnswer.write := by
    dsimp only [r]
  have hcarries : r.Carries s.prepared.model.provider.dialect [" Fine.\n", " "] :=
    Response.carries_of_write rfl rfl hbody (by decide) carries_mixedAnswer
  obtain ⟨hanswer, delivery, hevents, hdelivers⟩ :=
    (s.ends_of_carries hdecision hreceives hcarries).1 (by decide)
  obtain ⟨hresult, rfl, -⟩ := hdelivers.of_printer rfl rfl
  exact ⟨hdecision, hreceives, hcarries, hanswer, hresult, hevents⟩

end Submission

end CodeReview

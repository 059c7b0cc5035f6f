import CodeReview.Program.Basic
import CodeReview.Proofs.Session.Amid

/-!
# Which models are asked

A session puts its questions to models of the one configuration that it has loaded
(`Session.Course.asked`), and so does a run of the program, which takes one session along a course
(`Program.exists_follows`): `Program.asked_of_loaded`.
-/

namespace CodeReview

open Machine Act CommandLine

namespace Session

variable {a b : Session × Instant} {ds : List Deed} {q : Question} {path : String} {c : Config}

/-- The question is put to a model of the session's configuration. -/
def HasModelOf (s : Session) (q : Question) : Prop :=
  ∃ d, s.desk = some d ∧ ∃ key, d.config.model? key = some q.model

/-- The model of a question stays that of the session whose desk persists. -/
lemma HasModelOf.of_persists {s s' : Session} (h : s.HasModelOf q) (hpersists : s.Persists s') :
    s'.HasModelOf q := by
  obtain ⟨d, hdesk, key, hmodel⟩ := h
  obtain ⟨-, d', -, hdesk', hconfig, -⟩ := hpersists d hdesk
  exact ⟨d', hdesk', key, hconfig ▸ hmodel⟩

/-- The model of a question that is put in a step is one of the session after it. -/
lemma Step.asked (h : Step a ds b) (hq : .consulted q ∈ ds) : b.1.HasModelOf q := by
  cases h with
  | elapse | turnTo => cases hq
  | failed | opened | denied => simp at hq
  | allowed path wait now question hmodel h =>
      obtain rfl : q = question := by simpa using hq
      exact ⟨_, rfl, hmodel⟩

/-- **Every question of a course is put to a model of the configuration** that the session has in
the end. -/
lemma Course.asked (h : Course a ds b) (hq : .consulted q ∈ ds) : b.1.HasModelOf q := by
  induction h with
  | rest => cases hq
  | step _ hstep ih =>
      rcases List.mem_append.mp hq with hq | hq
      · exact (ih hq).of_persists hstep.persists
      · exact hstep.asked hq

/-- A configuration that a session has loaded is the one that it has in the end. -/
lemma OneDesk.config_of_loaded {s : Session} (h : OneDesk s ds)
    (hloaded : .loaded path (some c) ∈ ds) : ∃ d, s.desk = some d ∧ d.config = c := by
  have hmem : (path, some c) ∈ Deed.loads ds := List.mem_filterMap.mpr ⟨_, hloaded, rfl⟩
  obtain ⟨failed, hloads⟩ := h.loads
  rw [hloads] at hmem
  rcases List.mem_append.mp hmem with hmem | hmem
  · simp at hmem
  · obtain ⟨d, hdesk, heq⟩ := List.mem_map.mp hmem
    exact ⟨d, Option.mem_toList.mp hdesk, Option.some.inj (congrArg Prod.snd heq)⟩

/-- A session with a greeting and a farewell follows a course. -/
lemma interact_conducts (s : Session) (lines : List (List UInt8)) :
    Conducts id s (s.interact lines) := by
  rw [← interactAmid_still]
  exact s.interactAmid_conducts _

end Session

namespace Program

open Session

/-- Warning of a filter keeps to what a display may do. -/
lemma warnOfFilter_within : warnOfFilter.Within .silent :=
  Act.within_get_bind (fun _ => Act.within_forM _ fun _ _ => Act.within_note rfl) fun _ _ _ => rfl

/-- Warning of a filter is silent. -/
lemma warnOfFilter_silent : warnOfFilter.Keeps Silent := warnOfFilter_within.keeps_silent

/-- Ending a program notes no deed. -/
lemma conclude_silent (r : Except Failure Unit) : (conclude r).Keeps Silent := by
  cases r with
  | ok a => exact Act.keeps_pure _
  | error f =>
      have hcomplain : (complain f).Keeps Silent :=
        (Act.log_reading _ _).keeps_quiet.silent.bind fun _ => (Act.within_note rfl).keeps_silent
      exact hcomplain.bind fun _ => Act.keeps_pure _

/-- Stopping a program notes no deed. -/
lemma stopped_silent (stop : Stop) : (stopped stop).Keeps Silent := by
  cases stop with
  | help topic => exact (Act.within_note rfl).keeps_silent.bind fun _ => Act.keeps_pure _
  | fault f => exact (Act.within_note rfl).keeps_silent.bind fun _ => Act.keeps_pure _

/-- The session of a program follows a course. -/
lemma execute_follows (l : Line) (lines : List (List UInt8)) (m : Machine) :
    ∃ s, (sessionOf m l).Follows m s ((execute l lines).run m).2 := by
  unfold execute
  cases l.order with
  | some order => exact ⟨_, (sessionOf m l).run_conducts _ _ order m⟩
  | none => exact ⟨_, (sessionOf m l).interact_conducts lines m⟩

/-- **A run of the program takes one session along a course.** -/
lemma exists_follows (words : List String) (lines : List (List UInt8)) (m : Machine) :
    ∃ path wait s, (start path wait).Follows m s ((run words lines).run m).2 := by
  unfold run
  cases parse words with
  | error stop => exact ⟨"", false, _, follows_of_silent _ (stopped_silent stop m)⟩
  | ok l =>
      let m₁ := (warnOfFilter.run m).2
      obtain ⟨s, hexecute⟩ := execute_follows l lines m₁
      have hwarn := follows_of_silent (sessionOf m₁ l) (warnOfFilter_silent m)
      have hconclude := follows_of_silent s (conclude_silent ((execute l lines).run m₁).1
        ((execute l lines).run m₁).2)
      exact ⟨_, _, s, (hwarn.trans hexecute).trans hconclude⟩

/-- The deeds of a run. -/
def deedsOf (words : List String) (lines : List (List UInt8)) (m : Machine) : List Deed :=
  ((run words lines).run m).2.deeds.drop m.deeds.length

variable {words : List String} {lines : List (List UInt8)} {m : Machine} {path : String}
  {c : Config} {q : Question}

/-- **A run puts all its questions to models of the configuration that it has loaded.** -/
lemma asked_of_loaded (hloaded : .loaded path (some c) ∈ deedsOf words lines m)
    (hq : .consulted q ∈ deedsOf words lines m) : ∃ key, c.model? key = some q.model := by
  obtain ⟨path', wait, s, ds, hdeeds, hcourse⟩ := exists_follows words lines m
  rw [deedsOf, hdeeds, List.drop_left] at hloaded hq
  obtain ⟨d, hdesk, key, hmodel⟩ := hcourse.asked hq
  obtain ⟨d', hdesk', rfl⟩ := hcourse.kept.toOneDesk.config_of_loaded hloaded
  obtain rfl := Option.some.inj (hdesk.symm.trans hdesk')
  exact ⟨key, hmodel⟩

end Program

end CodeReview

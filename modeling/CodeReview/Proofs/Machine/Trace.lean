import CodeReview.Proofs.Machine.Keeps

/-!
# What acts leave behind

Nothing that a command does depends on what the journal says, apart from two numbers: how many
requests were sent and how many questions were asked, as the network and the models of a rehearsal
answer by them.  So an act on a machine leaves behind a `Trace` -- the time that it took, what it
noted, and the disk -- that is the same whatever was noted before (`Act.Leaves`).

A `Licence` says which events may be noted, what may become of the disk and how long it may take.
`Act.Within` says that an act leaves a trace on every machine and keeps to a licence; like
`Act.Keeps` it passes through everything that commands are built from.  The rest of the machine
never changes, so that what an act keeps can be read off its licence (`Act.Within.keeps`).
-/

namespace CodeReview

/-- What an act leaves behind. -/
structure Trace where
  elapsed : Duration
  events : List Event
  disk : Disk

/-- One trace and then another. -/
def Trace.andThen (t t' : Trace) : Trace := ⟨t.elapsed + t'.elapsed, t.events ++ t'.events, t'.disk⟩

/-- A trace to which nothing is added is the same. -/
lemma Trace.andThen_nothing (t : Trace) : t.andThen ⟨0, [], t.disk⟩ = t := by
  rw [andThen, List.append_nil]
  rfl

/-- Requests and the questions of a rehearsal are counted. -/
def Event.isCounted : Event → Bool
  | .sent .. | .asked _ => true
  | _ => false

/-- Lines of the log and drawings stand aside from the story. -/
def Event.isAside : Event → Bool
  | .logged .. | .drawn _ => true
  | _ => false

/-- Lines of the log. -/
def Event.isLogged : Event → Bool
  | .logged .. => true
  | _ => false

/-- The text that was shown in the console, if that is what happened. -/
def Event.shown? : Event → Option String
  | .shown text => some text
  | _ => none

/-- What is told by events: those that do not stand aside. -/
def Event.told (events : List Event) : List Event := events.filter fun e => !e.isAside

/-- What is told is told part by part. -/
lemma Event.told_append (es es' : List Event) : told (es ++ es') = told es ++ told es' :=
  List.filter_append ..

namespace Machine

variable {m : Machine} {j : List Event}

/-- A machine that has nothing on its disk and in its environment, and whom nobody answers. -/
def bare : Machine where
  disk := ⟨[], []⟩
  environment := []
  network := fun _ _ => .refused
  models := .network
  clock := 0
  stamp := ""
  terminal := none
  printer := none
  console := none
  journal := []

/-- The machine with another journal. -/
def withJournal (m : Machine) (j : List Event) : Machine := { m with journal := j }

/-- The machine after an act that left this trace. -/
def after (m : Machine) (t : Trace) : Machine :=
  { m with clock := m.clock + t.elapsed, journal := m.journal ++ t.events, disk := t.disk }

/-- By this journal as many requests were sent and as many questions asked. -/
structure CountsAs (m : Machine) (j : List Event) : Prop where
  requests : (m.withJournal j).requestsSent = m.requestsSent
  questions : (m.withJournal j).questionsAsked = m.questionsAsked

/-- A machine counts as its own journal says. -/
lemma countsAs_self (m : Machine) : m.CountsAs m.journal := ⟨rfl, rfl⟩

/-- Requests are counted part by part of a journal. -/
lemma requestsSent_append (m : Machine) (j es : List Event) :
    (m.withJournal (j ++ es)).requestsSent =
      (m.withJournal j).requestsSent + (m.withJournal es).requestsSent := by
  simp only [requestsSent, withJournal, List.filter_append, List.length_append]

/-- Questions are counted part by part of a journal. -/
lemma questionsAsked_append (m : Machine) (j es : List Event) :
    (m.withJournal (j ++ es)).questionsAsked =
      (m.withJournal j).questionsAsked + (m.withJournal es).questionsAsked := by
  simp only [questionsAsked, withJournal, List.filter_append, List.length_append]

/-- Journals that count the same do so after the same trace. -/
lemma CountsAs.after (h : m.CountsAs j) (t : Trace) : (m.after t).CountsAs (j ++ t.events) where
  requests := calc
    ((m.after t).withJournal (j ++ t.events)).requestsSent
      = (m.withJournal j).requestsSent + (m.withJournal t.events).requestsSent :=
        requestsSent_append _ _ _
    _ = m.requestsSent + (m.withJournal t.events).requestsSent := by rw [h.requests]
    _ = (m.after t).requestsSent := (requestsSent_append m m.journal t.events).symm
  questions := calc
    ((m.after t).withJournal (j ++ t.events)).questionsAsked
      = (m.withJournal j).questionsAsked + (m.withJournal t.events).questionsAsked :=
        questionsAsked_append _ _ _
    _ = m.questionsAsked + (m.withJournal t.events).questionsAsked := by rw [h.questions]
    _ = (m.after t).questionsAsked := (questionsAsked_append m m.journal t.events).symm

/-- Events that are not counted may be added. -/
lemma countsAs_append (m : Machine) {es : List Event} (h : ∀ e ∈ es, e.isCounted = false) :
    m.CountsAs (m.journal ++ es) := by
  constructor
  · have hnone : (m.withJournal es).requestsSent = 0 := by
      rw [requestsSent, List.length_eq_zero_iff, List.filter_eq_nil_iff]
      intro e he
      have hcounted := h e he
      cases e <;> simp_all [Event.isCounted]
    rw [requestsSent_append, hnone]
    rfl
  · have hnone : (m.withJournal es).questionsAsked = 0 := by
      rw [questionsAsked, List.length_eq_zero_iff, List.filter_eq_nil_iff]
      intro e he
      have hcounted := h e he
      cases e <;> simp_all [Event.isCounted]
    rw [questionsAsked_append, hnone]
    rfl

/-- A trace of nothing leaves the machine as it was. -/
lemma after_nothing (m : Machine) : m.after ⟨0, [], m.disk⟩ = m := by
  unfold after
  rw [List.append_nil]
  rfl

/-- Traces are left one after the other. -/
lemma after_andThen (m : Machine) (t t' : Trace) :
    m.after (t.andThen t') = (m.after t).after t' := by
  unfold after Trace.andThen
  rw [← List.append_assoc, ← Nat.add_assoc]

end Machine

/-- What an act may do: which events it may note, what may become of the disk, and how long it may
take. -/
structure Licence where
  event : Event → Prop
  disk : Disk → Disk → Prop
  time : Duration → Prop
  disk_refl (d : Disk) : disk d d
  disk_trans {d₁ d₂ d₃ : Disk} : disk d₁ d₂ → disk d₂ d₃ → disk d₁ d₃
  time_zero : time 0
  time_add {d d' : Duration} : time d → time d' → time (d + d')

namespace Licence

variable {L : Licence}

/-- Only requests are noted, and the disk is left alone. -/
def requesting : Licence where
  event e := ∃ request outcome, e = .sent request outcome
  disk := Eq
  time _ := True
  disk_refl _ := rfl
  disk_trans := Eq.trans
  time_zero := trivial
  time_add _ _ := trivial

/-- Only lines of the log and requests are noted, and the disk is left alone. -/
def reading : Licence where
  event e := match e with
    | .logged .. | .sent .. => True
    | _ => False
  disk := Eq
  time _ := True
  disk_refl _ := rfl
  disk_trans := Eq.trans
  time_zero := trivial
  time_add _ _ := trivial

/-- Only lines of the log and drawings are noted, in no time, and the disk is left alone. -/
def aside : Licence where
  event e := e.isAside = true
  disk := Eq
  time d := d = 0
  disk_refl _ := rfl
  disk_trans := Eq.trans
  time_zero := rfl
  time_add h h' := by rw [h, h']

/-- Everything but deeds is allowed. -/
def silent : Licence where
  event e := e.deed? = none
  disk _ _ := True
  time _ := True
  disk_refl _ := trivial
  disk_trans _ _ := trivial
  time_zero := trivial
  time_add _ _ := trivial

/-- Everything is allowed. -/
def any : Licence where
  event _ := True
  disk _ _ := True
  time _ := True
  disk_refl _ := trivial
  disk_trans _ _ := trivial
  time_zero := trivial
  time_add _ _ := trivial

/-- Events of a kind are noted, in no time, and the disk is left alone. -/
def noting (kind : Event → Prop) : Licence where
  event := kind
  disk := Eq
  time d := d = 0
  disk_refl _ := rfl
  disk_trans := Eq.trans
  time_zero := rfl
  time_add h h' := by rw [h, h']

/-- Events of a kind are noted, and everything else is allowed. -/
def working (kind : Event → Prop) : Licence where
  event := kind
  disk _ _ := True
  time _ := True
  disk_refl _ := trivial
  disk_trans _ _ := trivial
  time_zero := trivial
  time_add _ _ := trivial

/-- Only lines of the log are noted. -/
abbrev logging : Licence := noting (·.isLogged = true)

/-- Only lines of the log are noted, and text is shown. -/
abbrev remarking : Licence := noting fun e => e.isLogged = true ∨ e.shown?.isSome = true

/-- There are no deeds, and no text is shown. -/
abbrev backstage : Licence := working fun e => e.deed? = none ∧ e.shown? = none

/-- No text is shown. -/
abbrev offstage : Licence := working (·.shown? = none)

/-- A trace that is left on a machine with this disk keeps to the licence. -/
structure Permits (L : Licence) (d : Disk) (t : Trace) : Prop where
  events : ∀ e ∈ t.events, L.event e
  disk : L.disk d t.disk
  time : L.time t.elapsed

/-- Every licence permits to do nothing. -/
lemma permits_nothing (d : Disk) : L.Permits d ⟨0, [], d⟩ :=
  ⟨fun _ he => absurd he List.not_mem_nil, L.disk_refl d, L.time_zero⟩

/-- The widest licence permits everything. -/
lemma permits_any (d : Disk) (t : Trace) : any.Permits d t := ⟨fun _ _ => trivial, trivial, trivial⟩

/-- A licence to note events of a kind permits what a narrower kind does. -/
lemma Permits.noting_mono {kind kind' : Event → Prop} {d : Disk} {t : Trace}
    (h : (noting kind).Permits d t) (hkind : ∀ e, kind e → kind' e) : (noting kind').Permits d t :=
  ⟨fun e he => hkind e (h.events e he), h.disk, h.time⟩

/-- What is permitted may be done at work if its events are of the kind that may be noted there. -/
lemma Permits.working {kind : Event → Prop} {d : Disk} {t : Trace} (h : L.Permits d t)
    (hkind : ∀ e, L.event e → kind e) : (working kind).Permits d t :=
  ⟨fun e he => hkind e (h.events e he), trivial, trivial⟩

/-- Lines of the log may be noted while reading. -/
lemma reading_of_logging {d : Disk} {t : Trace} (h : logging.Permits d t) :
    reading.Permits d t := by
  refine ⟨fun e he => ?_, h.disk, trivial⟩
  have hevent : e.isLogged = true := h.events e he
  cases e with
  | logged => trivial
  | _ => cases hevent

/-- Lines of the log and requests are no deeds, and show nothing. -/
lemma backstage_of_reading {d : Disk} {t : Trace} (h : reading.Permits d t) :
    backstage.Permits d t := by
  refine h.working fun e he => ?_
  cases e with
  | logged => exact ⟨rfl, rfl⟩
  | sent => exact ⟨rfl, rfl⟩
  | _ => exact he.elim

/-- What happens backstage is no deed. -/
lemma silent_of_backstage {d : Disk} {t : Trace} (h : backstage.Permits d t) :
    silent.Permits d t := ⟨fun e he => (h.events e he).1, trivial, trivial⟩

/-- What happens backstage shows no text. -/
lemma offstage_of_backstage {d : Disk} {t : Trace} (h : backstage.Permits d t) :
    offstage.Permits d t := h.working fun _ he => he.2

/-- Reading shows no text. -/
lemma offstage_of_reading {d : Disk} {t : Trace} (h : reading.Permits d t) :
    offstage.Permits d t := offstage_of_backstage (backstage_of_reading h)

/-- What is permitted step by step is permitted as a whole. -/
lemma Permits.andThen {d : Disk} {t t' : Trace} (h : L.Permits d t) (h' : L.Permits t.disk t') :
    L.Permits d (t.andThen t') := by
  refine ⟨fun e he => ?_, L.disk_trans h.disk h'.disk, L.time_add h.time h'.time⟩
  rcases List.mem_append.mp he with he | he
  · exact h.events e he
  · exact h'.events e he

/-- What stands aside tells nothing. -/
lemma Permits.told {d : Disk} {t : Trace} (h : aside.Permits d t) : Event.told t.events = [] := by
  refine List.filter_eq_nil_iff.mpr fun e he => ?_
  have haside : e.isAside = true := h.events e he
  simp [haside]

/-- One machine is the other after an act that kept to the licence. -/
def Allows (L : Licence) (m m' : Machine) : Prop := ∃ t, m' = m.after t ∧ L.Permits m.disk t

/-- Nothing that is done under a licence changes what there is on the network. -/
lemma Allows.network_eq {m m' : Machine} (h : L.Allows m m') : m'.network = m.network := by
  obtain ⟨t, rfl, -⟩ := h
  rfl

end Licence

namespace Act

variable {α β : Type} {L : Licence}

/-- On this machine an act gives a result and leaves a trace, whatever was noted before. -/
def Leaves (act : Act α) (m : Machine) (a : α) (t : Trace) : Prop :=
  ∀ j, m.CountsAs j → act.run (m.withJournal j) = (a, (m.withJournal j).after t)

/-- An act leaves a trace on every machine and keeps to a licence. -/
def Within (L : Licence) (act : Act α) : Prop :=
  ∀ m, ∃ a t, act.Leaves m a t ∧ L.Permits m.disk t

/-- What an act leaves on a machine is what running it there comes to. -/
lemma Leaves.run_eq {act : Act α} {m : Machine} {a : α} {t : Trace} (h : act.Leaves m a t) :
    act.run m = (a, m.after t) := h m.journal m.countsAs_self

/-- An act leaves the same after another journal that counts the same. -/
lemma Leaves.withJournal {act : Act α} {m : Machine} {a : α} {t : Trace} {j : List Event}
    (h : act.Leaves m a t) (hj : m.CountsAs j) : act.Leaves (m.withJournal j) a t :=
  fun j' hj' => h j' ⟨hj'.requests.trans hj.requests, hj'.questions.trans hj.questions⟩

/-- What stands aside makes no difference to what is done after it. -/
lemma Leaves.after_aside {act : Act α} {m : Machine} {a : α} {t t' : Trace} (h : act.Leaves m a t)
    (haside : Licence.aside.Permits m.disk t') : act.Leaves (m.after t') a t := by
  have hafter : m.after t' = m.withJournal (m.journal ++ t'.events) := by
    unfold Machine.after Machine.withJournal
    rw [haside.time, ← haside.disk]
    rfl
  rw [hafter]
  refine h.withJournal (m.countsAs_append fun e he => ?_)
  have hevent : e.isAside = true := haside.events e he
  cases e <;> simp_all [Event.isAside, Event.isCounted]

/-- Two acts leave their traces one after the other. -/
lemma Leaves.bind {act : Act α} {f : α → Act β} {m : Machine} {a : α} {b : β} {t t' : Trace}
    (h : act.Leaves m a t) (hf : (f a).Leaves (m.after t) b t') :
    (act >>= f).Leaves m b (t.andThen t') := by
  intro j hj
  rw [StateT.run_bind, h j hj]
  have hafter := hf _ (hj.after t)
  rw [Machine.after_andThen]
  exact hafter

/-- Where an act keeps to a licence, the machine afterwards is one that the licence allows. -/
lemma Within.allows {act : Act α} (h : act.Within L) (m : Machine) :
    L.Allows m (act.run m).2 := by
  obtain ⟨a, t, ht, hpermits⟩ := h m
  exact ⟨t, by rw [ht.run_eq], hpermits⟩

/-- What holds of every machine and what it becomes under the licence is kept. -/
lemma Within.keeps {R : Machine → Machine → Prop} {act : Act α} (h : act.Within L)
    (hR : ∀ m t, L.Permits m.disk t → R m (m.after t)) : act.Keeps R := by
  intro m
  obtain ⟨a, t, ht, hpermits⟩ := h m
  rw [ht.run_eq]
  exact hR m t hpermits

/-- An act that keeps to a licence keeps to every wider one. -/
lemma Within.mono {L' : Licence} {act : Act α} (h : act.Within L)
    (hle : ∀ d t, L.Permits d t → L'.Permits d t) : act.Within L' := by
  intro m
  obtain ⟨a, t, ht, hpermits⟩ := h m
  exact ⟨a, t, ht, hle _ _ hpermits⟩

/-- An act that keeps to a licence keeps to the widest. -/
lemma Within.any {act : Act α} (h : act.Within L) : act.Within .any :=
  h.mono fun _ _ _ => Licence.permits_any _ _

/-- Doing nothing leaves nothing. -/
lemma leaves_pure (a : α) (m : Machine) : (pure a : Act α).Leaves m a ⟨0, [], m.disk⟩ :=
  fun j _ => congrArg (a, ·) (m.withJournal j).after_nothing.symm

/-- Doing nothing keeps to every licence. -/
lemma within_pure (a : α) : (pure a : Act α).Within L :=
  fun m => ⟨a, _, leaves_pure a m, Licence.permits_nothing _⟩

/-- A note leaves its event. -/
lemma leaves_note (e : Event) (m : Machine) : (note e).Leaves m () ⟨0, [e], m.disk⟩ :=
  fun _ _ => rfl

/-- A note keeps to a licence for its event. -/
lemma within_note {e : Event} (he : L.event e) : (note e).Within L :=
  fun m => ⟨(), _, leaves_note e m, by simpa using he, L.disk_refl _, L.time_zero⟩

/-- Waiting leaves nothing but the time that passes. -/
lemma leaves_pass (d : Duration) (m : Machine) : (pass d).Leaves m () ⟨d, [], m.disk⟩ := by
  intro j _
  change ((), _) = ((), Machine.mk ..)
  rw [List.append_nil]
  rfl

/-- Waiting keeps to a licence for that time. -/
lemma within_pass {d : Duration} (hd : L.time d) : (pass d).Within L :=
  fun m => ⟨(), _, leaves_pass d m, by simp, L.disk_refl _, hd⟩

/-- Two acts that keep to a licence keep to it together. -/
lemma Within.bind {act : Act α} {f : α → Act β} (h : act.Within L) (hf : ∀ a, (f a).Within L) :
    (act >>= f).Within L := by
  intro m
  obtain ⟨a, t, ht, hpermits⟩ := h m
  obtain ⟨b, t', ht', hpermits'⟩ := hf a (m.after t)
  exact ⟨b, t.andThen t', ht.bind ht', hpermits.andThen hpermits'⟩

/-- An act may look at the machine, and at the journal only to count. -/
lemma leaves_get_bind {f : Machine → Act β} {m : Machine} {b : β} {t : Trace}
    (hf : (f m).Leaves m b t) (hcounts : ∀ j, m.CountsAs j → f (m.withJournal j) = f m) :
    (get >>= f).Leaves m b t := by
  intro j hj
  change (f (m.withJournal j)).run (m.withJournal j) = _
  rw [hcounts j hj]
  exact hf j hj

/-- An act may look at the machine, if it does not look at more of the journal than what is
counted. -/
lemma within_get_bind {f : Machine → Act β} (hf : ∀ m, (f m).Within L)
    (hcounts : ∀ m j, m.CountsAs j → f (m.withJournal j) = f m) : (get >>= f).Within L := by
  intro m
  obtain ⟨b, t, ht, hpermits⟩ := hf m m
  exact ⟨b, t, leaves_get_bind ht (hcounts m), hpermits⟩

/-- A choice keeps to the licence of its branches. -/
lemma Within.ite {c : Prop} [Decidable c] {act act' : Act α} (h : act.Within L)
    (h' : act'.Within L) : (if c then act else act').Within L := by
  split_ifs
  · exact h
  · exact h'

/-- A step that is taken only sometimes, before what is done in any case. -/
lemma Within.sometimes {c : Prop} [Decidable c] {step : Act α} {rest : Act β}
    (hstep : step.Within L) (hrest : rest.Within L) :
    (if c then step >>= fun _ => rest else rest).Within L :=
  Within.ite (hstep.bind fun _ => hrest) hrest

/-- Going through a list keeps to the licence of the steps. -/
lemma within_forM {f : α → Act Unit} (as : List α) (hf : ∀ a ∈ as, (f a).Within L) :
    (as.forM f).Within L := by
  induction as with
  | nil => exact within_pure ()
  | cons a rest ih =>
      refine (hf a List.mem_cons_self).bind fun _ => ih fun b hb => ?_
      exact hf b (List.mem_cons_of_mem a hb)

/-- After an act comes the next one. -/
lemma run_bind_of {act : Act α} {f : α → Act β} {m m' : Machine} {a : α}
    (h : act.run m = (a, m')) : (act >>= f).run m = (f a).run m' := by
  rw [StateT.run_bind, h]
  rfl

end Act

namespace Command

variable {α β : Type} {L : Licence}

/-- After a command that succeeded comes the next one. -/
lemma run_bind_of_ok {c : Command α} {f : α → Command β} {m m' : Machine} {a : α}
    (h : c.run.run m = (.ok a, m')) : (c >>= f).run.run m = (f a).run.run m' := by
  rw [ExceptT.run_bind, StateT.run_bind, h]
  rfl

/-- After a command that failed comes nothing. -/
lemma run_bind_of_error {c : Command α} {f : α → Command β} {m m' : Machine} {e : Failure}
    (h : c.run.run m = (.error e, m')) : (c >>= f).run.run m = (.error e, m') := by
  rw [ExceptT.run_bind, StateT.run_bind, h]
  rfl

/-- Where commands in a row succeed, the first of them does. -/
lemma exists_of_run_bind {c : Command α} {f : α → Command β} {m m' : Machine} {b : β}
    (h : (c >>= f).run.run m = (.ok b, m')) :
    ∃ a m₁, c.run.run m = (.ok a, m₁) ∧ (f a).run.run m₁ = (.ok b, m') := by
  rcases hfirst : c.run.run m with ⟨e | a, m₁⟩
  · rw [run_bind_of_error hfirst] at h
    cases h
  · rw [run_bind_of_ok hfirst] at h
    exact ⟨a, m₁, rfl, h⟩

/-- As a command an act runs as before, and succeeds. -/
lemma run_lift (act : Act α) (m : Machine) :
    (liftM act : Command α).run.run m = (.ok (act.run m).1, (act.run m).2) := rfl

/-- What succeeds needs no handler. -/
lemma run_tryCatch_of_ok {c : Command α} {m m' : Machine} {a : α} (h : c.run.run m = (.ok a, m'))
    (f : Failure → Command α) : (tryCatch c f).run.run m = (.ok a, m') := by
  rw [ExceptT.run_tryCatch]
  exact Act.run_bind_of h

/-- What fails is handed to the handler. -/
lemma run_tryCatch_of_error {c : Command α} {m m' : Machine} {e : Failure}
    (h : c.run.run m = (.error e, m')) (f : Failure → Command α) :
    (tryCatch c f).run.run m = (f e).run.run m' := by
  rw [ExceptT.run_tryCatch]
  exact Act.run_bind_of h

/-- An act whose faults are turned into failures. -/
lemma run_orFail {ε : Type} (act : Act (Except ε α)) (failure : ε → Failure) (m : Machine) :
    (orFail act failure).run.run m = ((act.run m).1.mapError failure, (act.run m).2) := by
  rcases hact : act.run m with ⟨r, m'⟩
  have hlift : (liftM act : Command (Except ε α)).run.run m = (.ok r, m') := by
    rw [run_lift, hact]
  unfold orFail
  rw [run_bind_of_ok hlift]
  cases r with
  | ok a => rfl
  | error e => rfl

/-- On this machine a command gives a result or a failure and leaves a trace, whatever was noted
before. -/
def Leaves (c : Command α) (m : Machine) (r : Except Failure α) (t : Trace) : Prop :=
  c.run.Leaves m r t

/-- As a command an act leaves what it left before. -/
lemma leaves_lift {act : Act α} {m : Machine} {a : α} {t : Trace} (h : act.Leaves m a t) :
    Leaves (liftM act) m (.ok a) t := by
  intro j hj
  change ((act.run (m.withJournal j)).map Except.ok id : Except Failure α × Machine) = _
  rw [h j hj]
  rfl

/-- Failing leaves nothing. -/
lemma leaves_throw (f : Failure) (m : Machine) :
    Leaves (throw f : Command α) m (.error f) ⟨0, [], m.disk⟩ := Act.leaves_pure _ m

/-- Doing nothing leaves nothing. -/
lemma leaves_pure (a : α) (m : Machine) : Leaves (pure a) m (.ok a) ⟨0, [], m.disk⟩ :=
  Act.leaves_pure _ m

/-- Two commands leave their traces one after the other, if the first succeeds. -/
lemma Leaves.bind {c : Command α} {f : α → Command β} {m : Machine} {a : α} {r : Except Failure β}
    {t t' : Trace} (h : Leaves c m (.ok a) t) (hf : Leaves (f a) (m.after t) r t') :
    Leaves (c >>= f) m r (t.andThen t') := by
  unfold Leaves
  rw [ExceptT.run_bind]
  exact Act.Leaves.bind h hf

/-- A result that is passed on after a command. -/
lemma Leaves.bind_pure {c : Command α} {m : Machine} {a : α} {t : Trace}
    (h : Leaves c m (.ok a) t) (f : α → β) :
    Leaves (c >>= fun a => pure (f a)) m (.ok (f a)) t := by
  have hbind : Leaves (c >>= fun a => pure (f a)) m (.ok (f a)) (t.andThen ⟨0, [], t.disk⟩) :=
    h.bind (leaves_pure (f a) _)
  rwa [Trace.andThen_nothing] at hbind

/-- What comes after a command that fails is not done. -/
lemma Leaves.bind_error {c : Command α} {f : α → Command β} {m : Machine} {e : Failure} {t : Trace}
    (h : Leaves c m (.error e) t) : Leaves (c >>= f) m (.error e) t := by
  intro j hj
  exact run_bind_of_error (h j hj)

/-- A try that succeeds leaves what it left before. -/
lemma leaves_orFail_ok {ε : Type} {act : Act (Except ε α)} {m : Machine} {a : α} {t : Trace}
    (h : act.Leaves m (.ok a) t) (failure : ε → Failure) :
    Leaves (orFail act failure) m (.ok a) t := by
  have hbind : Leaves (orFail act failure) m (.ok a) (t.andThen ⟨0, [], t.disk⟩) :=
    (leaves_lift h).bind (leaves_pure a _)
  rwa [Trace.andThen_nothing] at hbind

/-- A try that does not succeed leaves what it left before, and is a failure. -/
lemma leaves_orFail_error {ε : Type} {act : Act (Except ε α)} {m : Machine} {e : ε} {t : Trace}
    (h : act.Leaves m (.error e) t) (failure : ε → Failure) :
    Leaves (orFail act failure) m (.error (failure e)) t := by
  have hbind : Leaves (orFail act failure) m (.error (failure e)) (t.andThen ⟨0, [], t.disk⟩) :=
    (leaves_lift h).bind (leaves_throw (failure e) _)
  rwa [Trace.andThen_nothing] at hbind

/-- A command may look at the machine, and at the journal only to count. -/
lemma leaves_get_bind {f : Machine → Command β} {m : Machine} {r : Except Failure β} {t : Trace}
    (hf : Leaves (f m) m r t) (hcounts : ∀ j, m.CountsAs j → f (m.withJournal j) = f m) :
    Leaves ((get : Command Machine) >>= f) m r t :=
  Act.leaves_get_bind (f := fun m => (f m).run) hf fun j hj => congrArg _ (hcounts j hj)

/-- A command leaves a trace on every machine and keeps to a licence, also where it fails. -/
def Within (L : Licence) (c : Command α) : Prop := c.run.Within L

/-- A command that keeps to a licence keeps to every wider one. -/
lemma Within.mono {L' : Licence} {c : Command α} (h : Within L c)
    (hle : ∀ d t, L.Permits d t → L'.Permits d t) : Within L' c := Act.Within.mono h hle

/-- A command that keeps to a licence keeps to the widest. -/
lemma Within.any {c : Command α} (h : Within L c) : Within .any c := Act.Within.any h

/-- As a command an act keeps to the licence that it kept to before. -/
lemma within_lift {act : Act α} (h : act.Within L) : Within L (liftM act : Command α) := by
  have hmap : (liftM act : Command α).run = act >>= fun a => pure (.ok a) := rfl
  unfold Within
  rw [hmap]
  exact h.bind fun a => Act.within_pure _

/-- Doing nothing keeps to every licence. -/
lemma within_pure (a : α) : Within L (pure a : Command α) := Act.within_pure _

/-- Failing keeps to every licence. -/
lemma within_throw (f : Failure) : Within L (throw f : Command α) := Act.within_pure _

/-- Succeeding or failing outright keeps to every licence. -/
lemma within_liftExcept (r : Except Failure α) : Within L (liftM r : Command α) := by
  cases r with
  | ok a => exact within_pure a
  | error f => exact within_throw f

/-- Two commands that keep to a licence keep to it together. -/
lemma Within.bind {c : Command α} {f : α → Command β} (h : Within L c)
    (hf : ∀ a, Within L (f a)) : Within L (c >>= f) := by
  unfold Within
  rw [ExceptT.run_bind]
  refine Act.Within.bind h fun r => ?_
  cases r with
  | ok a => exact hf a
  | error e => exact Act.within_pure _

/-- A command may look at the machine, if it does not look at more of the journal than what is
counted. -/
lemma within_get_bind {f : Machine → Command β} (hf : ∀ m, Within L (f m))
    (hcounts : ∀ m j, m.CountsAs j → f (m.withJournal j) = f m) :
    Within L ((get : Command Machine) >>= f) :=
  Act.within_get_bind (f := fun m => (f m).run) hf fun m j hj => congrArg _ (hcounts m j hj)

/-- A choice keeps to the licence of its branches. -/
lemma Within.ite {p : Prop} [Decidable p] {c c' : Command α} (h : Within L c) (h' : Within L c') :
    Within L (if p then c else c') := Act.Within.ite h h'

/-- A step that is taken only sometimes, before what is done in any case. -/
lemma Within.sometimes {p : Prop} [Decidable p] {step : Command α} {rest : Command β}
    (hstep : Within L step) (hrest : Within L rest) :
    Within L (if p then step >>= fun _ => rest else rest) :=
  Within.ite (hstep.bind fun _ => hrest) hrest

/-- A command with a handler keeps to the licence of both. -/
lemma Within.tryCatch {c : Command α} {f : Failure → Command α} (h : Within L c)
    (hf : ∀ e, Within L (f e)) : Within L (tryCatch c f) := by
  unfold Within
  rw [ExceptT.run_tryCatch]
  refine Act.Within.bind h fun r => ?_
  cases r with
  | ok a => exact Act.within_pure _
  | error e => exact hf e

/-- A try keeps to the licence of its act, whether or not it is a failure. -/
lemma within_orFail {ε : Type} {act : Act (Except ε α)} (h : act.Within L) (failure : ε → Failure) :
    Within L (orFail act failure) :=
  (within_lift h).bind fun
    | .ok a => within_pure a
    | .error e => within_throw (failure e)

end Command

/-! ### Requests -/

namespace Http

variable {L : Licence}

/-- An attempt sends its request, and whatever the outcome is, it only lets time pass then and does
what a redirect asks for. -/
lemma attempt_eq_bind (hpass : ∀ d, L.time d)
    {onward : Duration → Response → Url → Act (Except Fault Response)}
    (honward : ∀ left response target, (onward left response target).Within L)
    (left : Duration) (r : Request) :
    ∃ rest : Outcome → Act (Except Fault Response),
      attempt onward left r = sendOnce r >>= rest ∧ ∀ outcome, (rest outcome).Within L := by
  refine ⟨_, rfl, fun outcome => ?_⟩
  cases outcome with
  | refused => exact Act.within_pure _
  | answered delay response =>
      refine (Act.within_pass (hpass _)).bind fun _ => Act.Within.ite (Act.within_pure _) ?_
      cases response.target? r.url with
      | none => exact Act.within_pure _
      | some target => exact honward _ _ _

section Requests

variable (hsent : ∀ r o, L.event (.sent r o)) (hpass : ∀ d, L.time d)

include hsent hpass

/-- Sending a request once, and going on from there, keeps to a licence for requests. -/
lemma attempt_within {onward : Duration → Response → Url → Act (Except Fault Response)}
    (honward : ∀ left response target, (onward left response target).Within L)
    (left : Duration) (r : Request) : (attempt onward left r).Within L := by
  have hsend : (sendOnce r).Within L := by
    refine fun m => ⟨m.network m.requestsSent r,
      ⟨0, [.sent r (m.network m.requestsSent r)], m.disk⟩, fun j hj => ?_, by simpa using hsent _ _,
      L.disk_refl _, L.time_zero⟩
    rw [← hj.requests]
    rfl
  obtain ⟨rest, hattempt, hrest⟩ := attempt_eq_bind hpass honward left r
  rw [hattempt]
  exact hsend.bind hrest

/-- Sending a request keeps to a licence for requests, over any number of redirections. -/
lemma sendWithin_within (hops : ℕ) (left : Duration) (r : Request) :
    (sendWithin hops left r).Within L := by
  induction hops generalizing left r with
  | zero => exact attempt_within hsent hpass (fun _ _ _ => Act.within_pure _) _ _
  | succ hops ih =>
      refine attempt_within hsent hpass (fun left response target => ?_) _ _
      exact Act.Within.ite (Act.within_pure _) (ih _ _)

/-- Sending a request and following redirects does no more than noting requests and letting time
pass. -/
lemma send_within (timeout : Duration) (r : Request) : (send timeout r).Within L :=
  sendWithin_within hsent hpass _ _ _

end Requests

/-- An act that begins with sending this request, whatever it does then. -/
def Opens {α : Type} (act : Act α) (r : Request) : Prop :=
  ∀ m, ∃ outcome rest, (act.run m).2.journal = m.journal ++ .sent r outcome :: rest

section Opens

variable {α β : Type} {r : Request}

/-- An act that begins with a request does so whatever follows. -/
lemma Opens.bind {act : Act α} (h : Opens act r) {f : α → Act β} (hf : ∀ a, (f a).Within .any) :
    Opens (act >>= f) r := by
  intro m
  obtain ⟨outcome, rest, hrest⟩ := h m
  obtain ⟨t, ht, -⟩ := (hf (act.run m).1).allows (act.run m).2
  refine ⟨outcome, rest ++ t.events, ?_⟩
  have hrun : ((act >>= f).run m).2 = ((f (act.run m).1).run (act.run m).2).2 := rfl
  rw [hrun, ht, Machine.after, hrest, List.append_assoc, List.cons_append]

/-- Sending a request and going on from there begins with that request. -/
lemma opens_attempt {onward : Duration → Response → Url → Act (Except Fault Response)}
    (honward : ∀ left response target, (onward left response target).Within .any)
    (left : Duration) (r : Request) : Opens (attempt onward left r) r := by
  obtain ⟨rest, hattempt, hrest⟩ := attempt_eq_bind (fun _ => trivial) honward left r
  have honce : Opens (sendOnce r) r := fun m => ⟨_, [], rfl⟩
  rw [hattempt]
  exact honce.bind hrest

/-- Sending a request over redirections begins with that request. -/
lemma opens_send (timeout : Duration) (r : Request) : Opens (send timeout r) r := by
  unfold send
  cases maxRedirects with
  | zero => exact opens_attempt (fun _ _ _ => Act.within_pure _) _ _
  | succ hops =>
      refine opens_attempt (fun left response target => Act.Within.ite (Act.within_pure _) ?_) _ _
      exact sendWithin_within (fun _ _ => trivial) (fun _ => trivial) _ _ _

end Opens

end Http

end CodeReview

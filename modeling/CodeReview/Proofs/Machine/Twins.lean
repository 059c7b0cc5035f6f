import CodeReview.Http.Exchange
import CodeReview.Proofs.Machine.Keeps

/-!
# Two machines side by side

Two machines are twins when a user cannot tell them apart and their networks treat related requests
alike.  `Act.Agree` says that two acts, done on twins, give related results and leave twins; it
passes through everything that acts are built from.

A request that is sent is not among what a user sees: `Machine.visible` is the journal without
those, and `Machine.Unseen` says that it was left as it was.
-/

namespace CodeReview

open CodeReview.Http

namespace Machine

/-- The journal without the requests that were sent. -/
def visible (m : Machine) : List Event :=
  m.journal.filter fun | .sent .. => false | _ => true

/-- As many requests were sent and the same was shown; the networks answer related requests
alike. -/
structure Twins (R : Request → Request → Prop) (m₁ m₂ : Machine) : Prop where
  network : ∀ n r₁ r₂, R r₁ r₂ → m₁.network n r₁ = m₂.network n r₂
  requestsSent : m₁.requestsSent = m₂.requestsSent
  visible : m₁.visible = m₂.visible

/-- Nothing was shown. -/
def Unseen (m m' : Machine) : Prop := m'.visible = m.visible

instance : IsPreorder Machine Unseen where
  refl _ := rfl
  trans _ _ _ h h' := h'.trans h

section Twins

variable {R R' : Request → Request → Prop} {m₁ m₂ : Machine}

/-- A request that is sent cannot be seen. -/
lemma visible_sent (m : Machine) (r : Request) (o : Outcome) :
    (m.note (.sent r o)).visible = m.visible := by
  simp [visible, note]

/-- A request that is sent is counted. -/
lemma requestsSent_sent (m : Machine) (r : Request) (o : Outcome) :
    (m.note (.sent r o)).requestsSent = m.requestsSent + 1 := by
  simp [requestsSent, note]

/-- Networks that answer related requests alike do so for a narrower relation. -/
lemma Twins.mono (h : m₁.Twins R m₂) (hle : ∀ r₁ r₂, R' r₁ r₂ → R r₁ r₂) : m₁.Twins R' m₂ :=
  ⟨fun n r₁ r₂ hr => h.network n r₁ r₂ (hle r₁ r₂ hr), h.requestsSent, h.visible⟩

/-- Twins that note the same event are twins. -/
lemma Twins.note (h : m₁.Twins R m₂) (e : Event) : (m₁.note e).Twins R (m₂.note e) := by
  refine ⟨h.network, ?_, ?_⟩
  · have hsent := h.requestsSent
    unfold Machine.requestsSent at hsent ⊢
    simp only [Machine.note, List.filter_append, List.length_append, hsent]
  · have hvisible := h.visible
    unfold Machine.visible at hvisible ⊢
    simp only [Machine.note, List.filter_append, hvisible]

/-- Twins that send requests with the same outcome are twins. -/
lemma Twins.sent (h : m₁.Twins R m₂) (r₁ r₂ : Request) (o : Outcome) :
    (m₁.note (.sent r₁ o)).Twins R (m₂.note (.sent r₂ o)) := by
  refine ⟨h.network, ?_, ?_⟩
  · rw [requestsSent_sent, requestsSent_sent, h.requestsSent]
  · rw [visible_sent, visible_sent, h.visible]

end Twins

end Machine

namespace Act

variable {R : Request → Request → Prop} {α β γ δ : Type}

/-- On twins both acts give related results, and they leave twins. -/
def Agree (R : Request → Request → Prop) (S : α → β → Prop) (act₁ : Act α) (act₂ : Act β) : Prop :=
  ∀ m₁ m₂, m₁.Twins R m₂ →
    S (act₁.run m₁).1 (act₂.run m₂).1 ∧ (act₁.run m₁).2.Twins R (act₂.run m₂).2

variable {S : α → β → Prop} {T : γ → δ → Prop} {act₁ : Act α} {act₂ : Act β}

/-- Doing nothing agrees where its results do. -/
lemma agree_pure {a : α} {b : β} (h : S a b) : Agree R S (pure a) (pure b) :=
  fun _ _ hm => ⟨h, hm⟩

/-- Acts that agree one after the other agree together. -/
lemma Agree.bind {f : α → Act γ} {g : β → Act δ} (h : Agree R S act₁ act₂)
    (hf : ∀ a b, S a b → Agree R T (f a) (g b)) : Agree R T (act₁ >>= f) (act₂ >>= g) := by
  intro m₁ m₂ hm
  obtain ⟨hab, hm'⟩ := h m₁ m₂ hm
  exact hf _ _ hab _ _ hm'

/-- Acts whose results are related agree for a wider relation. -/
lemma Agree.mono {S' : α → β → Prop} (h : Agree R S act₁ act₂) (hle : ∀ a b, S a b → S' a b) :
    Agree R S' act₁ act₂ := fun m₁ m₂ hm => (h m₁ m₂ hm).imp_left (hle _ _)

/-- Choices whose branches agree, and that are made alike, agree. -/
lemma Agree.ite {act₁' : Act α} {act₂' : Act β} {c : Prop} [Decidable c]
    (h : Agree R S act₁ act₂) (h' : Agree R S act₁' act₂') :
    Agree R S (if c then act₁ else act₁') (if c then act₂ else act₂') := by
  split_ifs
  · exact h
  · exact h'

/-- Noting an event agrees with itself. -/
lemma agree_note (e : Event) : Agree R Eq (note e) (note e) := fun _ _ hm => ⟨rfl, hm.note e⟩

/-- Writing a line to the log agrees with itself. -/
lemma agree_log (level : Level) (text : String) : Agree R Eq (log level text) (log level text) :=
  agree_note _

/-- Waiting agrees with itself. -/
lemma agree_pass (d : Duration) : Agree R Eq (pass d) (pass d) :=
  fun _ _ hm => ⟨rfl, hm.network, hm.requestsSent, hm.visible⟩

/-- Related requests are answered alike. -/
lemma agree_sendOnce {r₁ r₂ : Request} (h : R r₁ r₂) :
    Agree R Eq (sendOnce r₁) (sendOnce r₂) := by
  intro m₁ m₂ hm
  have houtcome : m₁.network m₁.requestsSent r₁ = m₂.network m₂.requestsSent r₂ := by
    rw [hm.requestsSent, hm.network _ _ _ h]
  refine ⟨houtcome, ?_⟩
  change (m₁.note (.sent r₁ (m₁.network m₁.requestsSent r₁))).Twins R
    (m₂.note (.sent r₂ (m₂.network m₂.requestsSent r₂)))
  rw [houtcome]
  exact hm.sent r₁ r₂ _

end Act

end CodeReview

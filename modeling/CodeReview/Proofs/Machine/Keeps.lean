import CodeReview.Http.Exchange
import Mathlib.Order.Defs.Unbundled
import Mathlib.Tactic

/-!
# What commands leave as it was

A relation of machines says what a command may change.  `Act.Keeps` and `Command.Keeps` say that
a command changes no more than that, on every machine and whatever its result; where the relation is
a preorder, both pass through one step after the other.

Two such relations serve here.

* `Machine.Quiet`: nothing changed but the clock, which did not go back, and the journal, in which
  no deed was noted.  Deeds are the events that bear on the quota: a configuration that was loaded,
  an answer of the limiter, and a question to a model.
* `Machine.Silent`: no deed was noted and the clock did not go back, whatever else changed.
-/

namespace CodeReview

/-- Something that a command did and that bears on the quota. -/
inductive Deed where
  | loaded (path : String) (config : Option Config)
  | decided (time : Instant) (decision : Decision)
  | consulted (question : Question)
  deriving Repr, DecidableEq

/-- The deed that an event is, if it is one. -/
def Event.deed? : Event → Option Deed
  | .loaded path config => some (.loaded path config)
  | .decided time decision => some (.decided time decision)
  | .consulted question => some (.consulted question)
  | _ => none

namespace Machine

/-- The deeds in the journal. -/
def deeds (m : Machine) : List Deed := m.journal.filterMap Event.deed?

/-- Nothing changed but clock and journal, and no deed was noted. -/
def Quiet (m m' : Machine) : Prop :=
  ∃ d es, m' = { m with clock := m.clock + d, journal := m.journal ++ es } ∧
    ∀ e ∈ es, e.deed? = none

/-- No deed was noted, and the clock did not go back. -/
def Silent (m m' : Machine) : Prop := m'.deeds = m.deeds ∧ m.clock ≤ m'.clock

instance : IsPreorder Machine Silent where
  refl _ := ⟨rfl, Nat.le_refl _⟩
  trans _ _ _ h h' := ⟨h'.1.trans h.1, Nat.le_trans h.2 h'.2⟩

/-- What is quiet is silent. -/
lemma Quiet.silent {m m' : Machine} (h : m.Quiet m') : m.Silent m' := by
  obtain ⟨d, es, rfl, hes⟩ := h
  refine ⟨?_, Nat.le_add_right _ _⟩
  have hnone : es.filterMap Event.deed? = [] := List.filterMap_eq_nil_iff.mpr hes
  rw [deeds, List.filterMap_append, hnone, List.append_nil]
  rfl

/-- A note adds the deed that it is of, if it is of one. -/
lemma deeds_note (m : Machine) (e : Event) : (m.note e).deeds = m.deeds ++ e.deed?.toList := by
  rw [deeds, note, List.filterMap_append]
  cases h : e.deed? with
  | none => simp [h, deeds]
  | some d => simp [h, deeds]

end Machine

namespace Act

variable {R : Machine → Machine → Prop} {α β : Type}

/-- What is done relates every machine to the one it leaves. -/
def Keeps (R : Machine → Machine → Prop) (act : Act α) : Prop := ∀ m, R m (act.run m).2

/-- What keeps a relation keeps every wider one. -/
lemma Keeps.mono {R' : Machine → Machine → Prop} {act : Act α} (h : act.Keeps R)
    (hle : ∀ m m', R m m' → R' m m') : act.Keeps R' := fun m => hle _ _ (h m)

/-- Acts that keep two relations keep together what these come to. -/
lemma Keeps.comp {R₁ R₂ : Machine → Machine → Prop} {act : Act α} {f : α → Act β}
    (h : act.Keeps R₁) (hf : ∀ a, (f a).Keeps R₂)
    (hcomp : ∀ {m₁ m₂ m₃}, R₁ m₁ m₂ → R₂ m₂ m₃ → R m₁ m₃) : (act >>= f).Keeps R :=
  fun m => hcomp (h m) (hf _ _)

/-- What is quiet is silent. -/
lemma Keeps.silent {act : Act α} (h : act.Keeps Machine.Quiet) : act.Keeps Machine.Silent :=
  h.mono fun _ _ => Machine.Quiet.silent

/-- What comes behind an act and is silent leaves the deeds as they are. -/
lemma deeds_bind {f : α → Act β} (h : ∀ a, (f a).Keeps Machine.Silent) (act : Act α)
    (m : Machine) : ((act >>= f).run m).2.deeds = (act.run m).2.deeds := (h _ _).1

/-- A choice keeps what both its branches keep. -/
lemma Keeps.ite {c : Prop} [Decidable c] {act act' : Act α} (h : act.Keeps R) (h' : act'.Keeps R) :
    (if c then act else act').Keeps R := by
  split_ifs
  · exact h
  · exact h'

variable [IsPreorder Machine R]

/-- Doing nothing keeps every preorder. -/
lemma keeps_pure (a : α) : Keeps R (pure a : Act α) := fun m => refl_of R m

/-- Looking at the machine keeps every preorder. -/
lemma keeps_get : Keeps R (get : Act Machine) := fun m => refl_of R m

/-- Acts that keep a preorder keep it together. -/
lemma Keeps.bind {act : Act α} {f : α → Act β} (h : act.Keeps R) (hf : ∀ a, (f a).Keeps R) :
    (act >>= f).Keeps R := h.comp hf (trans_of R)

end Act

namespace Command

variable {R : Machine → Machine → Prop} {α β : Type}

/-- What is done relates every machine to the one it leaves, also where it fails. -/
def Keeps (R : Machine → Machine → Prop) (c : Command α) : Prop := c.run.Keeps R

/-- What an act keeps it keeps as a command. -/
lemma keeps_lift {act : Act α} (h : act.Keeps R) : Keeps R (liftM act : Command α) :=
  fun m => h m

/-- What is quiet is silent. -/
lemma Keeps.silent {c : Command α} (h : Keeps Machine.Quiet c) : Keeps Machine.Silent c :=
  Act.Keeps.silent h

variable [IsPreorder Machine R]

/-- Doing nothing keeps every preorder. -/
lemma keeps_pure (a : α) : Keeps R (pure a : Command α) := Act.keeps_pure _

/-- Failing keeps every preorder. -/
lemma keeps_throw (f : Failure) : Keeps R (throw f : Command α) := Act.keeps_pure _

/-- Commands that keep a preorder keep it together, also where the first one fails. -/
lemma Keeps.bind {c : Command α} {f : α → Command β} (h : Keeps R c) (hf : ∀ a, Keeps R (f a)) :
    Keeps R (c >>= f) := by
  unfold Keeps
  rw [ExceptT.run_bind]
  refine Act.Keeps.bind h fun r => ?_
  cases r with
  | ok a => exact hf a
  | error e => exact Act.keeps_pure _

end Command

end CodeReview

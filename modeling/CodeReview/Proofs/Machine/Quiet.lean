import CodeReview.Proofs.Machine.Licensed

/-!
# What bears on no quota

Everything that commands do beside loading the configuration of a session, asking the limiter and
asking a model notes no deed.  Where a file may be written, or text shown, `Machine.Silent` is what
remains; everything else is `Machine.Quiet`.  Both are read off the licences.
-/

namespace CodeReview

open Machine Licence

/-- No deed is allowed, and the disk is left alone. -/
class Licence.IsQuiet (L : Licence) : Prop where
  deed?_eq_none : ∀ e, L.event e → e.deed? = none
  disk_eq : ∀ d d', L.disk d d' → d = d'

instance : IsQuiet reading where
  deed?_eq_none e he := by
    cases e with
    | logged => rfl
    | sent => rfl
    | _ => exact he.elim
  disk_eq _ _ := id

instance : IsQuiet aside where
  deed?_eq_none e he := by
    have haside : e.isAside = true := he
    cases e with
    | logged => rfl
    | drawn => rfl
    | _ => cases haside
  disk_eq _ _ := id

namespace Act

variable {α : Type} {L : Licence} {act : Act α}

/-- What a quiet licence allows is quiet. -/
lemma Within.keeps_quiet [L.IsQuiet] (h : act.Within L) : act.Keeps Quiet := by
  refine h.keeps fun m t ht => ⟨t.elapsed, t.events, ?_, fun e he => ?_⟩
  · unfold Machine.after
    rw [← IsQuiet.disk_eq _ _ ht.disk]
  · exact IsQuiet.deed?_eq_none e (ht.events e he)

/-- What an act does under the silent licence is silent. -/
lemma Within.keeps_silent (h : act.Within silent) : act.Keeps Silent := by
  refine h.keeps fun m t ht => ⟨?_, Nat.le_add_right _ _⟩
  have hnone : t.events.filterMap Event.deed? = [] :=
    List.filterMap_eq_nil_iff.mpr fun e he => ht.events e he
  unfold deeds Machine.after
  rw [List.filterMap_append, hnone, List.append_nil]

end Act

namespace Command

variable {α : Type} {L : Licence} {c : Command α}

/-- What a quiet licence allows a command is quiet. -/
lemma Within.keeps_quiet [L.IsQuiet] (h : Within L c) : Keeps Quiet c := Act.Within.keeps_quiet h

/-- What a command does under the silent licence is silent. -/
lemma Within.keeps_silent (h : Within silent c) : Keeps Silent c := Act.Within.keeps_silent h

end Command

end CodeReview

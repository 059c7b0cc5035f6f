import CodeReview.Proofs.Session.Conduct

/-!
# Sessions amid changes

While a session waits for its next line, time passes, files and settings change, and the network
and the models get other things to say.  `Interlude` is such a change, and `Session.interactAmid` a
session with one before each of its lines; where nothing changes it is `Session.interact`
(`interactAmid_still`).

`interactAmid_oneDesk` puts together what all commands keep: whatever happens around a session, it
opens one desk at most, and all its questions pass the gate of that desk's limiter.
-/

namespace CodeReview

open Machine Act Command

variable {α β : Type}

/-- What happens around a session between two lines: the journal is the session's own, and the
clock does not go back. -/
structure Interlude where
  act : Machine → Machine
  journal_eq (m : Machine) : (act m).journal = m.journal
  clock_le (m : Machine) : m.clock ≤ (act m).clock

/-- Nothing happens. -/
def Interlude.still : Interlude := ⟨id, fun _ => rfl, fun _ => Nat.le_refl _⟩

/-- An interlude notes no deed, and the clock does not go back in it. -/
lemma Interlude.silent (i : Interlude) (m : Machine) : m.Silent (i.act m) :=
  ⟨congrArg (·.filterMap Event.deed?) (i.journal_eq m), i.clock_le m⟩

namespace Session

/-- Take lines until one of them or their end ends the session, each after an interlude. -/
def takeLinesAmid (s : Session) :
    List (Interlude × List UInt8) → Act (Except Failure Unit × Session)
  | [] => s.takeLines []
  | (i, line) :: rest => do
    match ← prompt.run with
    | .error f => pure (.error f, s)
    | .ok () => do
      modify i.act
      match ← s.takeLine line with
      | (.error f, s) => pure (.error f, s)
      | (.ok false, s) => pure (.ok (), s)
      | (.ok true, s) => s.takeLinesAmid rest

/-- Take lines from an input, each after an interlude, with a greeting and a farewell. -/
def interactAmid (s : Session) (lines : List (Interlude × List UInt8)) :
    Act (Except Failure Unit × Session) := do
  greet
  let (result, s) ← s.takeLinesAmid lines
  part result
  pure (result, s)

/-- Where nothing happens between the lines, they are taken as a session takes them. -/
lemma takeLinesAmid_still (s : Session) (lines : List (List UInt8)) :
    s.takeLinesAmid (lines.map (Interlude.still, ·)) = s.takeLines lines := by
  induction lines generalizing s with
  | nil => rfl
  | cons line rest ih =>
      rw [List.map_cons, takeLinesAmid, takeLines]
      simp only [ih]
      rfl

/-- **Where nothing happens around it, a session takes its lines as they come.** -/
theorem interactAmid_still (s : Session) (lines : List (List UInt8)) :
    s.interactAmid (lines.map (Interlude.still, ·)) = s.interact lines := by
  unfold interactAmid interact
  rw [takeLinesAmid_still]

/-! ### The course of a whole session -/

/-- Taking no lines follows a course. -/
lemma takeLines_nil_conducts (s : Session) : Conducts id s (s.takeLines []) := by
  unfold takeLines
  refine Conducts.after (display_silent promptText true).keeps_silent fun r => ?_
  cases r with
  | error f => exact conducts_pure _
  | ok a => exact conducts_of_keeps (display_silent _ _).keeps_silent

/-- Taking lines follows a course, whatever happens between them. -/
lemma takeLinesAmid_conducts (s : Session) (lines : List (Interlude × List UInt8)) :
    Conducts id s (s.takeLinesAmid lines) := by
  induction lines generalizing s with
  | nil => exact s.takeLines_nil_conducts
  | cons entry rest ih =>
      obtain ⟨i, line⟩ := entry
      refine Conducts.after (display_silent promptText true).keeps_silent fun r => ?_
      cases r with
      | error f => exact conducts_pure _
      | ok a =>
          have hact : Act.Keeps Silent (modify i.act) := i.silent
          refine Conducts.after hact fun _ => ?_
          refine (s.takeLine_conducts line).bind fun r s' => ?_
          rcases r with f | _ | _
          · exact conducts_pure _
          · exact conducts_pure _
          · exact ih s'

/-- **A whole session takes a course**, whatever happens around it. -/
lemma interactAmid_conducts (s : Session) (lines : List (Interlude × List UInt8)) :
    Conducts id s (s.interactAmid lines) := by
  refine Conducts.after (Act.log_reading _ _).keeps_quiet.silent fun _ => ?_
  refine (s.takeLinesAmid_conducts lines).bind fun r s' => ?_
  exact Conducts.after (part_reading r).keeps_quiet.silent fun _ => conducts_pure r

/-- The end of the input leaves the session as it is. -/
lemma takeLines_nil_session (s : Session) (m : Machine) : ((s.takeLines []).run m).1.2 = s := by
  unfold takeLines
  rw [StateT.run_bind]
  generalize prompt.run.run m = prompted
  obtain ⟨r, m'⟩ := prompted
  cases r with
  | error f => rfl
  | ok a => rfl

/-- From every machine, a desk that the one act leaves open the other act leaves open too. -/
def Prolongs (act act' : Act (α × Session)) : Prop :=
  ∀ m, (act.run m).1.2.Persists (act'.run m).1.2

/-- Every act prolongs itself. -/
lemma prolongs_refl (act : Act (α × Session)) : Prolongs act act := fun _ => Persists.refl _

/-- An act prolongs another if it does so after a common beginning. -/
lemma prolongs_bind {act : Act α} {f g : α → Act (β × Session)} (h : ∀ a, Prolongs (f a) (g a)) :
    Prolongs (act >>= f) (act >>= g) := fun _ => h _ _

/-- What the first lines have opened is open after all lines. -/
lemma takeLinesAmid_append_prolongs (s : Session) (before after : List (Interlude × List UInt8)) :
    Prolongs (s.takeLinesAmid before) (s.takeLinesAmid (before ++ after)) := by
  induction before generalizing s with
  | nil =>
      intro m
      have hfirst : ((s.takeLinesAmid []).run m).1.2 = s := s.takeLines_nil_session m
      rw [hfirst]
      obtain ⟨ds, -, hcourse⟩ := s.takeLinesAmid_conducts after m
      exact hcourse.persists
  | cons entry rest ih =>
      obtain ⟨i, line⟩ := entry
      rw [List.cons_append, takeLinesAmid, takeLinesAmid]
      refine prolongs_bind fun r => ?_
      cases r with
      | error f => exact prolongs_refl _
      | ok a =>
          -- both sessions take this line alike; they part only where their lines end
          refine prolongs_bind fun _ => prolongs_bind fun r => ?_
          rcases r with ⟨f | _ | _, s'⟩
          · exact prolongs_refl _
          · exact prolongs_refl _
          · exact ih s'

/-- **A session opens one desk at most, keeps it with its configuration and its path, and lets every
question pass the gate of that desk's limiter**, whatever its lines are and whatever happens around
it.  The session after its first lines stands for any moment of it. -/
theorem interactAmid_oneDesk (path : String) (wait : Bool)
    (before after : List (Interlude × List UInt8)) (m : Machine) :
    let first := ((start path wait).interactAmid before).run m
    let whole := ((start path wait).interactAmid (before ++ after)).run m
    ∃ ds, whole.2.deeds = m.deeds ++ ds ∧ OneDesk whole.1.2 ds ∧ first.1.2.Persists whole.1.2 := by
  obtain ⟨ds, hdeeds, hcourse⟩ := (start path wait).interactAmid_conducts (before ++ after) m
  refine ⟨ds, hdeeds, hcourse.kept.toOneDesk, ?_⟩
  exact (start path wait).takeLinesAmid_append_prolongs before after _

end Session

end CodeReview

import CodeReview.Proofs.Machine.Trace

/-!
# Machines that differ in what was told

Two machines match when they are the same but for what their journals say, and count the same
requests and questions by these.  An act that leaves a trace cannot tell them apart
(`Act.Leaves.run_of_matches`), and leaves machines that match again (`Machine.Matches.after`).
Remarks, which are lines of the log and text in the console, lead from a machine to one that matches
it (`Machine.matches_after`).
-/

namespace CodeReview

open Licence

namespace Machine

/-- The machines differ in their journals only, and by these as many requests were sent and as many
questions asked. -/
structure Matches (m m' : Machine) : Prop where
  rest : m.withJournal m'.journal = m'
  requests : m'.requestsSent = m.requestsSent
  questions : m'.questionsAsked = m.questionsAsked

variable {m m' m'' : Machine} {j : List Event}

/-- A machine matches itself with another journal that counts the same. -/
lemma matches_withJournal (h : m.CountsAs j) : m.Matches (m.withJournal j) :=
  ⟨rfl, h.requests, h.questions⟩

/-- The journals of machines that match count the same. -/
lemma Matches.countsAs (h : m.Matches m') : m.CountsAs m'.journal := by
  refine ⟨?_, ?_⟩
  · rw [h.rest, h.requests]
  · rw [h.rest, h.questions]

/-- Machines that match have the same console. -/
lemma Matches.console_eq (h : m.Matches m') : m'.console = m.console := by
  rw [← h.rest]
  rfl

/-- Machines that match have the same disk. -/
lemma Matches.disk_eq (h : m.Matches m') : m'.disk = m.disk := by
  rw [← h.rest]
  rfl

/-- Matching is mutual. -/
lemma Matches.symm (h : m.Matches m') : m'.Matches m := by
  refine ⟨?_, h.requests.symm, h.questions.symm⟩
  rw [← h.rest]
  rfl

/-- What matches the same machine matches. -/
lemma Matches.trans (h : m.Matches m') (h' : m'.Matches m'') : m.Matches m'' := by
  refine ⟨?_, h'.requests.trans h.requests, h'.questions.trans h.questions⟩
  rw [← h'.rest, ← h.rest]
  rfl

/-- The same trace leads to machines that match again. -/
lemma Matches.after (h : m.Matches m') (t : Trace) : (m.after t).Matches (m'.after t) := by
  have hafter : m'.after t = (m.after t).withJournal (m'.journal ++ t.events) := by
    rw [← h.rest]
    rfl
  rw [hafter]
  exact matches_withJournal (h.countsAs.after t)

/-- Remarks leave a machine that differs in its journal only. -/
lemma matches_after {t : Trace} (h : remarking.Permits m.disk t) : m.Matches (m.after t) := by
  have hafter : m.after t = m.withJournal (m.journal ++ t.events) := by
    unfold Machine.after Machine.withJournal
    rw [h.time, ← h.disk]
    rfl
  rw [hafter]
  refine matches_withJournal (m.countsAs_append fun e he => ?_)
  rcases h.events e he with hevent | hevent
  · cases e with
    | logged => rfl
    | _ => cases hevent
  · cases e with
    | shown => rfl
    | _ => cases hevent

/-- Text in the console leads to a machine that matches. -/
lemma matches_shown (m : Machine) (text : String) : m.Matches (m.note (.shown text)) :=
  matches_withJournal (m.countsAs_append (by simp [Event.isCounted]))

end Machine

/-- What an act leaves on a machine it leaves on all that match. -/
lemma Act.Leaves.run_of_matches {α : Type} {act : Act α} {m m' : Machine} {a : α} {t : Trace}
    (h : act.Leaves m a t) (hm : m.Matches m') : act.run m' = (a, m'.after t) := by
  have hrun := h m'.journal hm.countsAs
  rwa [hm.rest] at hrun

end CodeReview

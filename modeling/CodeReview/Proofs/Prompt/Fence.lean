import CodeReview.Prompt.Message
import CodeReview.Proofs.Text.Cut
import Mathlib.Data.List.TakeWhile
import Mathlib.Tactic

/-!
# Reading a message back

A message is cut into lines.  Its last line is the fence, and reading upwards from there the next
line that is the fence again is the opening one: the source between them cannot hold it, because
the fence is longer than every run of back quotes in the source.  What the instruction holds does
not matter, although it may hold fences of any length.

`message_readable` states that instruction and source are read back, that nothing else of them is in
the message, and that no line before the last closes the block that the opening fence opens.
-/

namespace CodeReview.Prompt

open CodeReview.Text

/-! ### Runs -/

section Runs

variable {α : Type}

/-- A run stands in every longer run of the same character, and in no shorter one. -/
lemma replicate_infix_replicate_iff {c : α} {n m : ℕ} :
    List.replicate n c <:+: List.replicate m c ↔ n ≤ m := by
  rw [List.infix_replicate_iff]
  simp

end Runs

variable {c : Char} {n : ℕ}

/-- Lengths up to the one that is found are up to the best so far, or stand in the run under way and
what follows it. -/
lemma le_longestRunFrom_iff {run best : ℕ} {s : List Char} :
    n ≤ longestRunFrom c run best s ↔
      n ≤ best ∨ List.replicate n c <:+: List.replicate run c ++ s := by
  induction s generalizing run best with
  | nil =>
      rw [longestRunFrom, List.append_nil, replicate_infix_replicate_iff]
      omega
  | cons d rest ih =>
      rw [longestRunFrom]
      split_ifs with hd
      · rw [ih, hd, List.replicate_succ', List.append_assoc, List.singleton_append]
      · rw [ih, List.replicate_zero, List.nil_append]
        cases n with
        | zero => simp
        | succ n =>
            rw [infix_append_cons_iff (by simp [hd]), replicate_infix_replicate_iff, ← or_assoc,
              le_max_iff, or_comm (a := n + 1 ≤ run)]

/-- Runs of every length up to the longest one stand in a text, and no longer ones. -/
lemma le_longestRun_iff {s : List Char} : n ≤ longestRun c s ↔ List.replicate n c <:+: s := by
  rw [longestRun, le_longestRunFrom_iff, List.replicate_zero, List.nil_append]
  refine ⟨fun h => h.elim (fun h0 => ?_) id, .inr⟩
  rw [Nat.le_zero.mp h0]
  exact List.nil_infix

/-! ### Lines -/

/-- The lines of a text, each of which a line feed ends. -/
def lines (s : List Char) : List (List Char) := (s.splitOn '\n').dropLast

/-- The text that stands on lines, without a line feed at its end. -/
def ofLines (ls : List (List Char)) : String := String.ofList (['\n'].intercalate ls)

/-- A line feed separates the lines in front of it from those behind it. -/
lemma splitOn_append_cons (x y : List Char) :
    (x ++ '\n' :: y).splitOn '\n' = x.splitOn '\n' ++ y.splitOn '\n' :=
  List.splitOnP_append_cons x y (by decide)

/-- A text is put together again from its lines. -/
lemma ofLines_splitOn (s : List Char) : ofLines (s.splitOn '\n') = String.ofList s := by
  rw [ofLines, List.intercalate_splitOn]

/-- A line is among lines with separators between them, too. -/
lemma mem_intersperse_of_mem {line sep : List Char} {ls : List (List Char)} (h : line ∈ ls) :
    line ∈ ls.intersperse sep := by
  induction ls with
  | nil => cases h
  | cons l ls ih =>
      cases ls with
      | nil => exact h
      | cons l' ls =>
          rw [List.intersperse_cons_cons]
          rcases List.mem_cons.mp h with rfl | h
          · exact List.mem_cons_self
          · exact List.mem_cons_of_mem _ (List.mem_cons_of_mem _ (ih h))

/-- What stands between line feeds stands in the text. -/
lemma infix_of_mem_splitOn {s line : List Char} (h : line ∈ s.splitOn '\n') : line <:+: s := by
  have hflat : line <:+: ['\n'].intercalate (s.splitOn '\n') :=
    List.infix_of_mem_flatten (mem_intersperse_of_mem h)
  rwa [List.intercalate_splitOn] at hflat

/-! ### The lines of a message -/

/-- The line before and after a source text. -/
def fence (source : List Char) : List Char := List.replicate (fenceLength source) tick

/-- The source text as it stands in a message. -/
def bodyOf (source : List Char) : List Char := dropEndWhile (· == '\n') source

variable {instruction source : List Char}

/-- No fence stands in the source that it is made for. -/
lemma not_fence_infix : ¬fence source <:+: source := by
  rw [fence, ← le_longestRun_iff, fenceLength]
  omega

/-- A source is what stands of it in a message, and line feeds. -/
lemma exists_eq_bodyOf_append (source : List Char) :
    ∃ k, source = bodyOf source ++ List.replicate k '\n' := by
  have hfeeds : source.reverse.takeWhile (· == '\n') =
      List.replicate (source.reverse.takeWhile (· == '\n')).length '\n' :=
    List.eq_replicate_iff.mpr
      ⟨rfl, fun c hc => eq_of_beq (List.mem_takeWhile_imp (p := (· == '\n')) hc)⟩
  refine ⟨(source.reverse.takeWhile (· == '\n')).length, ?_⟩
  calc source
      = (source.reverse.takeWhile (· == '\n') ++ source.reverse.dropWhile (· == '\n')).reverse := by
        rw [List.takeWhile_append_dropWhile, List.reverse_reverse]
    _ = bodyOf source ++ List.replicate (source.reverse.takeWhile (· == '\n')).length '\n' := by
        rw [List.reverse_append, ← List.reverse_replicate, ← hfeeds]
        rfl

/-- What stands of a source in a message is how the source begins. -/
lemma prefix_bodyOf (source : List Char) : bodyOf source <+: source := by
  obtain ⟨k, hk⟩ := exists_eq_bodyOf_append source
  exact ⟨_, hk.symm⟩

/-- Line feeds at the end of a text add no run of back quotes. -/
lemma ticks_infix_of_append_feeds {x : List Char} {k : ℕ}
    (h : List.replicate n tick <:+: x ++ List.replicate k '\n') : List.replicate n tick <:+: x := by
  cases n with
  | zero => exact List.nil_infix
  | succ n =>
      cases k with
      | zero => rwa [List.replicate_zero, List.append_nil] at h
      | succ k =>
          rw [List.replicate_succ (a := '\n'), infix_append_cons_iff (by simp [tick])] at h
          refine h.resolve_right fun h => ?_
          have htick : tick ∈ List.replicate k '\n' := h.subset (by simp)
          exact absurd (List.eq_of_mem_replicate htick) (by decide)

/-- The line feeds at the end of a source do not bear on its fence. -/
lemma fence_bodyOf (source : List Char) : fence (bodyOf source) = fence source := by
  have hlongest : longestRun tick (bodyOf source) = longestRun tick source := by
    refine le_antisymm ?_ ?_
    · rw [le_longestRun_iff]
      exact (le_longestRun_iff.mp le_rfl).trans (prefix_bodyOf source).isInfix
    · obtain ⟨k, hk⟩ := exists_eq_bodyOf_append source
      have hrun : List.replicate (longestRun tick source) tick <:+:
          bodyOf source ++ List.replicate k '\n' := by
        rw [← hk]
        exact le_longestRun_iff.mp le_rfl
      exact le_longestRun_iff.mpr (ticks_infix_of_append_feeds hrun)
  rw [fence, fence, fenceLength, fenceLength, hlongest]

/-- A message holds nothing but its instruction and its source as they are read back. -/
lemma messageChars_eq : messageChars instruction source =
    trimEndChars instruction ++ '\n' :: '\n' :: (fence (bodyOf source) ++ '\n' ::
      (bodyOf source ++ '\n' :: (fence (bodyOf source) ++ ['\n']))) := by
  rw [fence_bodyOf]
  simp [messageChars, fence, bodyOf]

/-- The lines of a message: those of the instruction, an empty one, the fence, those of the source,
and the fence again. -/
lemma lines_messageChars :
    lines (messageChars instruction source) =
      (trimEndChars instruction).splitOn '\n' ++
        [] :: fence source :: ((bodyOf source).splitOn '\n' ++ [fence source]) := by
  have hfence : (fence source).splitOn '\n' = [fence source] := by
    refine List.splitOnP_eq_singleton fun c hc => ?_
    rw [List.eq_of_mem_replicate hc]
    decide
  have hmessage : messageChars instruction source = trimEndChars instruction ++ '\n' ::
      ([] ++ '\n' :: (fence source ++ '\n' :: (bodyOf source ++ '\n' ::
        (fence source ++ '\n' :: [])))) := by
    rw [messageChars_eq, fence_bodyOf]
    rfl
  have hlines : (messageChars instruction source).splitOn '\n' =
      ((trimEndChars instruction).splitOn '\n' ++
        [] :: fence source :: ((bodyOf source).splitOn '\n' ++ [fence source])) ++ [[]] := by
    rw [hmessage]
    simp only [splitOn_append_cons, hfence]
    simp [List.splitOn]
  rw [lines, hlines, List.dropLast_concat]

/-- No line of the source holds a run as long as its fence. -/
lemma not_fence_infix_of_mem {line : List Char} (h : line ∈ (bodyOf source).splitOn '\n') :
    ¬fence source <:+: line := fun hf =>
  not_fence_infix (hf.trans ((infix_of_mem_splitOn h).trans (prefix_bodyOf source).isInfix))

/-! ### Reading a message -/

/-- Instruction and source text of a message.  The last line is the fence, and the opening fence is
the next line above it that is the same. -/
def read? (text : String) : Option (String × String) :=
  match (lines text.toList).reverse with
  | [] => none
  | last :: above =>
    match above.dropWhile (· ≠ last) with
    | _ :: [] :: before =>
      some (ofLines before.reverse, ofLines (above.takeWhile (· ≠ last)).reverse)
    | _ => none

/-- Instruction and source are read back from their message. -/
lemma read?_message (instruction source : String) :
    read? (message instruction source) = some (trimEnd instruction, trimEndOf '\n' source) := by
  have hnot : ∀ line ∈ ((bodyOf source.toList).splitOn '\n').reverse,
      (decide (line ≠ fence source.toList)) = true := by
    intro line h
    rw [List.mem_reverse] at h
    refine decide_eq_true ?_
    rintro rfl
    exact not_fence_infix_of_mem h (List.infix_refl _)
  rw [read?, message, String.toList_ofList, lines_messageChars]
  simp only [List.reverse_append, List.reverse_cons, List.reverse_nil, List.nil_append,
    List.append_assoc, List.cons_append]
  rw [List.dropWhile_append_of_pos hnot, List.takeWhile_append_of_pos hnot]
  simp only [ne_eq, not_true_eq_false, decide_false, List.dropWhile_cons, List.takeWhile_cons,
    Bool.false_eq_true, ite_false, List.append_nil, List.reverse_reverse, ofLines_splitOn]
  rfl

/-- Two messages are the same exactly where what is read back from them is. -/
lemma message_eq_iff {instruction instruction' source source' : String} :
    message instruction' source' = message instruction source ↔
      trimEnd instruction' = trimEnd instruction ∧
        trimEndOf '\n' source' = trimEndOf '\n' source := by
  constructor
  · intro h
    have hread := read?_message instruction' source'
    rw [h, read?_message, Option.some.injEq, Prod.mk.injEq] at hread
    exact ⟨hread.1.symm, hread.2.symm⟩
  · rintro ⟨hi, hs⟩
    have hi : trimEndChars instruction'.toList = trimEndChars instruction.toList :=
      String.ofList_injective hi
    have hs : bodyOf source'.toList = bodyOf source.toList := String.ofList_injective hs
    rw [message, message, messageChars_eq, messageChars_eq, hi, hs]

/-- **A message can be read back.**  Instruction and source are read from it, up to blanks at the
end of the one and line feeds at the end of the other; two messages are the same only where both
are; and after the opening fence, which stands on the second line after the instruction, the first
line with a run of back quotes as long as the fence is the last line of the message. -/
theorem message_readable (instruction source : String) :
    read? (message instruction source) = some (trimEnd instruction, trimEndOf '\n' source) ∧
    (∀ instruction' source' : String, message instruction' source' = message instruction source ↔
      trimEnd instruction' = trimEnd instruction ∧
        trimEndOf '\n' source' = trimEndOf '\n' source) ∧
    ∃ later, lines (message instruction source).toList =
        (trimEnd instruction).toList.splitOn '\n' ++ [] :: fence source.toList :: later ∧
      later.dropWhile (fun line => ¬fence source.toList <:+: line) = [fence source.toList] := by
  refine ⟨read?_message instruction source, fun _ _ => message_eq_iff,
    (bodyOf source.toList).splitOn '\n' ++ [fence source.toList], ?_, ?_⟩
  · rw [message, String.toList_ofList, lines_messageChars, trimEnd, String.toList_ofList]
  · rw [List.dropWhile_append_of_pos fun line h => decide_eq_true (not_fence_infix_of_mem h)]
    simp

end CodeReview.Prompt

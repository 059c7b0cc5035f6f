import CodeReview.Proofs.CommandLine.Grammar
import CodeReview.Proofs.Text.Cut
import CodeReview.Proofs.Text.Trim
import Mathlib.Data.List.ModifyLast

/-!
# What trimming a line does to its words

A session trims a line before it reads its words.  Blanks in front of a line never count.  Blanks
behind it do not count either where the reader stands between two words or at the end of one, and
where a quote is open the line has no words with them or without.  One case is left: behind a
backslash outside quotes the first blank belongs to the last word, and trimming takes it away.

Which case it is depends on the end of the trimmed line alone.  The reader comes to the backslashes
there with none of them read (`Scan.exists_stand`), and outside quotes two of them make one
character, so that the last one is without a partner where their number is odd
(`Scan.words?_append_blank`).

* `words?_eq_elim_lostBlank`: the words of a line are those of the trimmed line, but for the blank
  that was lost; and trimming changes the words exactly where there is such a blank and the trimmed
  line can be read at all.
* `words?_trim_ne`: the smallest kind of order that trimming changes.
-/

namespace CodeReview.CommandLine

open CodeReview.Text

/-- How many backslashes there are at the end of a row. -/
def backslashesAtEnd (s : List Char) : ℕ := (s.reverse.takeWhile (· == '\\')).length

/-- A row is what stands in front of its last backslashes, and those. -/
lemma eq_append_backslashes (s : List Char) :
    dropEndWhile (· == '\\') s ++ List.replicate (backslashesAtEnd s) '\\' = s := by
  have hrun : s.reverse.takeWhile (· == '\\') = List.replicate (backslashesAtEnd s) '\\' := by
    refine List.eq_replicate_iff.mpr ⟨rfl, fun c hc => ?_⟩
    simpa using List.mem_takeWhile_imp hc
  rw [← List.reverse_replicate, ← hrun, dropEndWhile, ← List.reverse_append,
    List.takeWhile_append_dropWhile, List.reverse_reverse]

/-- Without the backslashes at its end a text does not end with one. -/
lemma getLast?_dropEndWhile_ne (s : List Char) :
    ∀ c ∈ (dropEndWhile (· == '\\') s).getLast?, c ≠ '\\' := by
  intro c hc
  have hnot := List.head?_dropWhile_not (· == '\\') s.reverse
  rw [dropEndWhile, List.getLast?_reverse] at hc
  rw [Option.mem_def.mp hc] at hnot
  simpa using hnot

namespace Scan

variable {gap rest front : List Char} {w : List Char} {done : List (List Char)} {c : Char} {n : ℕ}

/-! ### Where the reader stands before the last backslashes -/

/-- If a text does not end with a backslash, it does not so without its first character. -/
lemma last_of_cons {d : Char} (h : ∀ c ∈ (d :: front).getLast?, c ≠ '\\') :
    ∀ c ∈ front.getLast?, c ≠ '\\' := by
  intro c hc
  cases front with
  | nil => cases hc
  | cons e front => exact h c (by rwa [List.getLast?_cons_cons])

/-- A row that does not end in a backslash brings the reader to where it goes on with what follows,
whatever that is. -/
lemma exists_stand (s : Scan) (done : List (List Char)) (front : List Char)
    (h : ∀ c ∈ front.getLast?, c ≠ '\\') :
    ∃ s' done', ∀ rest, words? s done (front ++ rest) = words? s' done' rest := by
  fun_induction words? s done front with
  | case1 done => exact ⟨between, done, fun _ => rfl⟩
  | case2 w done => exact ⟨bare w, done, fun _ => rfl⟩
  | case3 w done => exact ⟨single w, done, fun _ => rfl⟩
  | case4 w done => exact ⟨double w, done, fun _ => rfl⟩
  | case5 w done front ih => exact ih (last_of_cons h)
  | case6 w done c front hc ih =>
      obtain ⟨s', done', hstand⟩ := ih (last_of_cons h)
      refine ⟨s', done', fun rest => (if_neg hc).trans (hstand rest)⟩
  | case7 w done front ih | case8 w done front ih => exact ih (last_of_cons (last_of_cons h))
  | case9 w done front _ _ ih => exact ih (last_of_cons h)
  | case10 w done c front hd hq hc ih =>
      obtain ⟨s', done', hstand⟩ := ih (last_of_cons h)
      refine ⟨s', done', fun rest => ?_⟩
      rw [← hstand]
      by_cases hback : c = '\\'
      · subst hback
        cases front with
        | nil => exact absurd rfl (h '\\' rfl)
        | cons d front =>
            have hnotquote : d ≠ '"' := fun hd' => hd front rfl (hd' ▸ rfl)
            have hnotback : d ≠ '\\' := fun hq' => hq front rfl (hq' ▸ rfl)
            exact words?_double_lone hnotquote hnotback
      · exact words?_double_plain hc hback
  | case11 => exact absurd rfl (h '\\' rfl)
  | case12 done c front ih => exact ih (last_of_cons (last_of_cons h))
  | case13 done c front _ _ hc ih =>
      obtain ⟨s', done', hstand⟩ := ih (last_of_cons h)
      exact ⟨s', done', fun rest => (words?_between_blank hc).trans (hstand rest)⟩
  | case14 done front _ _ _ ih => exact ih (last_of_cons h)
  | case15 done front _ _ _ _ ih => exact ih (last_of_cons h)
  | case16 done c front hend hq hb hs hd ih =>
      obtain ⟨s', done', hstand⟩ := ih (last_of_cons h)
      have hblank : isBlank c = false := by simpa using hb
      refine ⟨s', done', fun rest => ?_⟩
      rw [← hstand, List.cons_append, words?_between_of_not_blank hblank]
      exact words?_bare_plain hblank hs hd (ne_backslash hend hq)
  | case17 => exact absurd rfl (h '\\' rfl)
  | case18 w done c front ih => exact ih (last_of_cons (last_of_cons h))
  | case19 w done c front _ _ hc ih =>
      obtain ⟨s', done', hstand⟩ := ih (last_of_cons h)
      exact ⟨s', done', fun rest => (words?_bare_blank hc).trans (hstand rest)⟩
  | case20 w done front _ _ _ ih => exact ih (last_of_cons h)
  | case21 w done front _ _ _ _ ih => exact ih (last_of_cons h)
  | case22 w done c front hend hq hb hs hd ih =>
      obtain ⟨s', done', hstand⟩ := ih (last_of_cons h)
      refine ⟨s', done', fun rest => ?_⟩
      rw [← hstand]
      exact words?_bare_plain (by simpa using hb) hs hd (ne_backslash hend hq)

/-! ### The last backslashes and the blanks behind them -/

/-- Outside quotes two backslashes make one character. -/
lemma words?_bare_pairs (k : ℕ) : words? (bare w) done (List.replicate (k + k) '\\' ++ rest) =
    words? (bare (List.replicate k '\\' ++ w)) done rest := by
  induction k generalizing w with
  | zero => rfl
  | succ k ih =>
      have htwo : List.replicate (k + 1 + (k + 1)) '\\' =
          '\\' :: '\\' :: List.replicate (k + k) '\\' := by
        rw [← List.replicate_succ, ← List.replicate_succ]
        congr 1
        omega
      have hword : List.replicate (k + 1) '\\' ++ w = List.replicate k '\\' ++ '\\' :: w := by
        rw [List.replicate_succ', List.append_assoc, List.singleton_append]
      rw [htwo, hword, ← ih]
      rfl

/-- Blanks at the end of a line do not count between words. -/
lemma words?_between_gap (hgap : ∀ c ∈ gap, isBlank c = true) :
    words? between done gap = words? between done [] := by
  have hrest : words? between done (gap ++ []) = words? between done [] := words?_gap hgap
  rwa [List.append_nil] at hrest

/-- They end the word under way. -/
lemma words?_bare_gap (hgap : ∀ c ∈ gap, isBlank c = true) :
    words? (bare w) done gap = words? (bare w) done [] := by
  cases gap with
  | nil => rfl
  | cons c gap =>
      obtain ⟨hc, hgap⟩ := List.forall_mem_cons.mp hgap
      rw [words?_bare_blank hc, words?_between_gap hgap]
      rfl

/-- In a word, outside quotes: the last backslashes pair off, or the last one of them takes the
first of the blanks. -/
lemma words?_bare_append_blank (hgap : ∀ d ∈ c :: gap, isBlank d = true) (n : ℕ) :
    words? (bare w) done (List.replicate n '\\' ++ c :: gap) =
      if Even n then words? (bare w) done (List.replicate n '\\')
      else (words? (bare w) done (List.replicate n '\\')).map (List.modifyLast (· ++ [c])) := by
  rcases Nat.even_or_odd' n with ⟨k, rfl | rfl⟩
  · have heven : Even (2 * k) := even_two_mul k
    have hnone : words? (bare w) done (List.replicate (k + k) '\\' ++ []) =
        words? (bare (List.replicate k '\\' ++ w)) done [] := words?_bare_pairs k
    rw [List.append_nil] at hnone
    rw [if_pos heven, two_mul, hnone, words?_bare_pairs, words?_bare_gap hgap]
  · have hodd : ¬Even (2 * k + 1) := Nat.not_even_bit1 k
    have hrun : List.replicate (2 * k + 1) '\\' = List.replicate (k + k) '\\' ++ ['\\'] := by
      rw [two_mul, List.replicate_succ']
    have hone : words? (bare (List.replicate k '\\' ++ w)) done ['\\'] =
        some (done.reverse ++ [(List.replicate k '\\' ++ w).reverse]) := words?_bare_nil
    have htaken : words? (bare (List.replicate k '\\' ++ w)) done ('\\' :: c :: gap) =
        some (done.reverse ++ [(c :: (List.replicate k '\\' ++ w)).reverse]) := by
      show words? (bare (c :: (List.replicate k '\\' ++ w))) done gap = _
      rw [words?_bare_gap (List.forall_mem_cons.mp hgap).2, words?_bare_nil]
    rw [if_neg hodd, hrun, List.append_assoc, words?_bare_pairs, words?_bare_pairs, hone,
      List.singleton_append, htaken, Option.map_some, List.modifyLast_concat, List.reverse_cons]

/-- A quote that is open and finds no other of its kind is not closed. -/
lemma words?_single_eq_none (h : '\'' ∉ rest) : words? (single w) done rest = none := by
  rw [Option.eq_none_iff_forall_ne_some]
  intro ws hws
  obtain ⟨vs, -, t, r, rfl, -⟩ := fits_of_words? _ _ _ hws
  exact h (by simp)

/-- Double quotes that are not closed leave no words. -/
lemma words?_double_eq_none (h : '"' ∉ rest) : words? (double w) done rest = none := by
  rw [Option.eq_none_iff_forall_ne_some]
  intro ws hws
  obtain ⟨vs, -, t, v, r, rfl, -⟩ := fits_of_words? _ _ _ hws
  exact h (by simp)

/-- **Blanks behind a row** do not count, unless the row ends in a backslash without a partner: where
the row can be read, that one takes the first blank into the last word. -/
lemma words?_append_blank (s : List Char) (hgap : ∀ d ∈ c :: gap, isBlank d = true) :
    words? between [] (s ++ c :: gap) =
      if Even (backslashesAtEnd s) then words? between [] s
      else (words? between [] s).map (List.modifyLast (· ++ [c])) := by
  have hnotin : ∀ q, isBlank q = false → q ≠ '\\' →
      q ∉ List.replicate (backslashesAtEnd s) '\\' ++ c :: gap := by
    intro q hq hback hmem
    rcases List.mem_append.mp hmem with hrun | hblank
    · exact hback (List.eq_of_mem_replicate hrun)
    · rw [hgap q hblank] at hq
      cases hq
  obtain ⟨stand, done, hstand⟩ :=
    exists_stand between [] (dropEndWhile (· == '\\') s) (getLast?_dropEndWhile_ne s)
  have hread : ∀ rest, words? between [] (s ++ rest) =
      words? stand done (List.replicate (backslashesAtEnd s) '\\' ++ rest) := by
    intro rest
    rw [← hstand, ← List.append_assoc, eq_append_backslashes]
  have hself := hread []
  rw [List.append_nil, List.append_nil] at hself
  rw [hread, hself]
  cases stand with
  | single w =>
      have hsingle := hnotin '\'' (by decide) (by decide)
      rw [words?_single_eq_none hsingle,
        words?_single_eq_none fun h => hsingle (List.mem_append_left _ h)]
      split_ifs <;> rfl
  | double w =>
      have hdouble := hnotin '"' (by decide) (by decide)
      rw [words?_double_eq_none hdouble,
        words?_double_eq_none fun h => hdouble (List.mem_append_left _ h)]
      split_ifs <;> rfl
  | bare w => exact words?_bare_append_blank hgap _
  | between =>
      cases hn : backslashesAtEnd s with
      | zero =>
          rw [if_pos Even.zero]
          exact words?_between_gap hgap
      | succ n =>
          -- the first of the backslashes begins a word
          have hbegins : ∀ rest, words? between done (List.replicate (n + 1) '\\' ++ rest) =
              words? (bare []) done (List.replicate (n + 1) '\\' ++ rest) := fun rest =>
            words?_between_of_not_blank (by decide)
          have hbegins' := hbegins []
          rw [List.append_nil] at hbegins'
          rw [hbegins, hbegins']
          exact words?_bare_append_blank hgap _

/-- A row that has no words has no backslash at its end. -/
lemma backslashesAtEnd_of_words? {s : List Char} (h : words? between [] s = some []) :
    backslashesAtEnd s = 0 := by
  by_contra hsome
  have hmem : '\\' ∈ s := by
    rw [← eq_append_backslashes s]
    exact List.mem_append_right _ (List.mem_replicate.mpr ⟨hsome, rfl⟩)
  have hwritten := words?_eq_some_iff_written.mp h
  cases hwritten with
  | blank hgap => exact absurd (hgap _ hmem) (by decide)

end Scan

/-! ### Lines of text -/

/-- The blank that trimming takes out of the last word of a line: the first one behind it, if the
trimmed line ends in a backslash without a partner. -/
def lostBlank? (line : String) : Option Char :=
  if Even (backslashesAtEnd (trim line).toList) then none else (gapBehind line).head?

/-- A change of the last entry carries over to the images of the entries. -/
lemma map_modifyLast {α β : Type} (g : α → β) (f : α → α) (f' : β → β)
    (hcomm : ∀ a, g (f a) = f' (g a)) (l : List α) :
    (l.modifyLast f).map g = (l.map g).modifyLast f' := by
  rcases l.eq_nil_or_concat' with rfl | ⟨l, a, rfl⟩
  · rfl
  · rw [List.modifyLast_concat, List.map_append, List.map_append, List.map_singleton,
      List.map_singleton, List.modifyLast_concat, hcomm]

/-- The words of a line, told from those of the trimmed line. -/
lemma words?_eq_elim (line : String) :
    words? line = (lostBlank? line).elim (words? (trim line)) fun c =>
      (words? (trim line)).map (List.modifyLast (·.push c)) := by
  have hline : Scan.words? .between [] line.toList =
      Scan.words? .between [] ((trim line).toList ++ gapBehind line) := by
    rw [← gaps_eq line, List.append_assoc]
    exact Scan.words?_gap fun _ hc => isBlank_of_mem_gapBefore hc
  have hgap : ∀ d ∈ gapBehind line, isBlank d = true := fun _ hd => isBlank_of_mem_gapBehind hd
  have hboth : ∀ s : List Char, (Scan.words? .between [] s).map (·.map String.ofList) =
      words? (String.ofList s) := fun s => by rw [words?, String.toList_ofList]
  rw [words?, hline, lostBlank?]
  cases hbehind : gapBehind line with
  | nil =>
      rw [List.append_nil, hboth, String.ofList_toList]
      split_ifs
      · rw [Option.elim_none]
      · rw [List.head?_nil, Option.elim_none]
  | cons c gap =>
      rw [hbehind] at hgap
      rw [Scan.words?_append_blank _ hgap]
      by_cases heven : Even (backslashesAtEnd (trim line).toList)
      · rw [if_pos heven, if_pos heven, hboth, String.ofList_toList, Option.elim_none]
      · have hcomm : ∀ ws : List (List Char),
            (ws.modifyLast (· ++ [c])).map String.ofList =
              (ws.map String.ofList).modifyLast (·.push c) :=
          map_modifyLast _ _ _ fun w => String.toList_inj.mp (by simp)
        rw [if_neg heven, if_neg heven, List.head?_cons, Option.elim_some, words?, Option.map_map,
          Option.map_map]
        simp only [Function.comp_def, hcomm]

/-- A character more on the last word makes other words. -/
lemma modifyLast_push_ne (c : Char) {words : List String} (h : words ≠ []) :
    words.modifyLast (·.push c) ≠ words := by
  obtain ⟨front, last, rfl⟩ := words.eq_nil_or_concat'.resolve_left h
  rw [List.modifyLast_concat]
  intro hsame
  have hlast : last.push c = last := by simpa using hsame
  have hlength := congrArg String.length hlast
  rw [String.length_push] at hlength
  omega

/-- Where a blank is lost there is a word that it was part of. -/
lemma ne_nil_of_lostBlank? {line : String} {c : Char} {words : List String}
    (hlost : lostBlank? line = some c) (hwords : words? (trim line) = some words) :
    words ≠ [] := by
  rintro rfl
  obtain ⟨ws, hws, hnil⟩ := Option.map_eq_some_iff.mp hwords
  obtain rfl := List.map_eq_nil_iff.mp hnil
  have hzero := Scan.backslashesAtEnd_of_words? hws
  rw [lostBlank?, hzero, if_pos Even.zero] at hlost
  cases hlost

/-- **What trimming does to the words of a line.**  They are those of the trimmed line, but for the
blank that was lost: it stands at the end of the last word.  So trimming changes the words exactly
where a blank is lost and the trimmed line can be read. -/
theorem words?_eq_elim_lostBlank (line : String) :
    (words? line = (lostBlank? line).elim (words? (trim line)) fun c =>
      (words? (trim line)).map (List.modifyLast (·.push c))) ∧
    (words? (trim line) = words? line ↔ lostBlank? line = none ∨ words? (trim line) = none) := by
  have helim := words?_eq_elim line
  refine ⟨helim, ?_⟩
  cases hlost : lostBlank? line with
  | none =>
      rw [hlost, Option.elim_none] at helim
      simp [helim]
  | some c =>
      rw [hlost, Option.elim_some] at helim
      rw [helim]
      constructor
      · intro hsame
        right
        by_contra hread
        obtain ⟨ws, hws⟩ := Option.ne_none_iff_exists'.mp hread
        rw [hws, Option.map_some, Option.some.injEq] at hsame
        exact modifyLast_push_ne c (ne_nil_of_lostBlank? hlost hws) hsame.symm
      · rintro (hnone | hunread)
        · cases hnone
        · rw [hunread, Option.map_none]

/-- **A blank that was escaped** at the end of a line is lost with the others. -/
theorem words?_trim_ne :
    words? (trim "analyze --file snippet --model nope\\ ") =
        some ["analyze", "--file", "snippet", "--model", "nope"] ∧
      words? "analyze --file snippet --model nope\\ " =
        some ["analyze", "--file", "snippet", "--model", "nope "] := by
  decide +kernel

end CodeReview.CommandLine

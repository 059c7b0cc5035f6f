import CodeReview.Proofs.CommandLine.Grammar
import CodeReview.Proofs.Text.Trim

/-!
# Texts that stand for themselves between double quotes

A path with backslashes can often be typed between double quotes as it is.  `IsVerbatim` says for
which texts this is so, and `words?_quoted_iff` that for all others it is not: whatever quotes,
backslashes and blanks they hold, the line is read as something else, or cannot be read.

The characters are counted, along the grammar.  What is written for a word has no fewer characters
than the word, and more of them if there is a double quote among these (`Written.Word.length_lt_or`).
So the quote in front of a text is matched by the one behind it.  Matched by an earlier one it would
take that one along, and the one behind would be lost too: three characters, where the line has two
more than the text.
-/

namespace CodeReview.CommandLine

open CodeReview.Text

/-- A text that stands for itself between double quotes: no quote ends it, and no backslash stands
before a quote or a backslash. -/
structure IsVerbatim (s : List Char) : Prop where
  noQuote : '"' ∉ s
  noPair : ¬['\\', '\\'] <:+: s
  noLast : s.getLast? ≠ some '\\'

instance (s : List Char) : Decidable (IsVerbatim s) :=
  decidable_of_iff ('"' ∉ s ∧ ¬['\\', '\\'] <:+: s ∧ s.getLast? ≠ some '\\')
    ⟨fun h => ⟨h.1, h.2.1, h.2.2⟩, fun h => ⟨h.noQuote, h.noPair, h.noLast⟩⟩

namespace Written

variable {s t v : List Char} {c d : Char}

/-! ### By the grammar -/

/-- What stands between double quotes stands for no more characters than it has. -/
lemma Inside.length_le (h : Inside t v) : v.length ≤ t.length := by
  induction h with
  | nil => exact le_rfl
  | plain _ _ _ ih => simpa using ih
  | quote _ ih | backslash _ ih =>
      simp only [List.length_cons]
      omega
  | kept _ _ _ ih => simpa using ih

/-- The empty text is verbatim. -/
lemma isVerbatim_nil : IsVerbatim [] := ⟨by simp, by simp, by simp⟩

/-- A character that is neither quote nor backslash changes nothing in front of a text. -/
lemma isVerbatim_cons_iff (hd : c ≠ '"') (hq : c ≠ '\\') : IsVerbatim (c :: s) ↔ IsVerbatim s := by
  have hpair : ['\\', '\\'] <:+: c :: s ↔ ['\\', '\\'] <:+: s := by
    rw [List.infix_cons_iff, List.cons_prefix_cons, or_iff_right fun h => hq h.1.symm]
  have hlast : (c :: s).getLast? = some '\\' ↔ s.getLast? = some '\\' := by
    cases s with
    | nil => simp [hq]
    | cons d rest => rw [List.getLast?_cons_cons]
  constructor
  · intro h
    exact ⟨fun hmem => h.noQuote (List.mem_cons_of_mem c hmem), hpair.not.mp h.noPair,
      hlast.not.mp h.noLast⟩
  · intro h
    exact ⟨List.not_mem_cons_of_ne_of_not_mem (Ne.symm hd) h.noQuote, hpair.not.mpr h.noPair,
      hlast.not.mpr h.noLast⟩

/-- Neither does a backslash, if what follows it is such a character. -/
lemma isVerbatim_backslash_cons_iff (hd : d ≠ '"') (hq : d ≠ '\\') :
    IsVerbatim ('\\' :: d :: s) ↔ IsVerbatim s := by
  have hpair : ['\\', '\\'] <:+: '\\' :: d :: s ↔ ['\\', '\\'] <:+: d :: s := by
    rw [List.infix_cons_iff, List.cons_prefix_cons, List.cons_prefix_cons,
      or_iff_right fun h => hq h.2.1.symm]
  have hlast : ('\\' :: d :: s).getLast? = (d :: s).getLast? := List.getLast?_cons_cons
  refine Iff.trans ?_ (isVerbatim_cons_iff hd hq)
  constructor
  · intro h
    exact ⟨fun hmem => h.noQuote (List.mem_cons_of_mem _ hmem), hpair.not.mp h.noPair,
      hlast ▸ h.noLast⟩
  · intro h
    exact ⟨List.not_mem_cons_of_ne_of_not_mem (by decide) h.noQuote, hpair.not.mpr h.noPair,
      hlast ▸ h.noLast⟩

/-- What stands for itself between double quotes is verbatim. -/
lemma Inside.isVerbatim (h : Inside t v) (hself : v = t) : IsVerbatim t := by
  induction h with
  | nil => exact isVerbatim_nil
  | plain hd hq _ ih => exact (isVerbatim_cons_iff hd hq).mpr (ih (List.cons.inj hself).2)
  | quote => exact absurd (List.cons.inj hself).1 (by decide)
  | backslash h =>
      -- the text behind the pair would be longer than what it stands for
      have hlength := h.length_le
      rw [(List.cons.inj hself).2, List.length_cons] at hlength
      omega
  | kept hd hq _ ih =>
      exact (isVerbatim_backslash_cons_iff hd hq).mpr
        (ih (List.cons.inj (List.cons.inj hself).2).2)

/-- What is verbatim stands for itself between double quotes. -/
lemma inside_of_isVerbatim : ∀ {s : List Char}, IsVerbatim s → Inside s s
  | [], _ => .nil
  | [c], h => by
      have hd : c ≠ '"' := fun hd => h.noQuote (hd ▸ List.mem_cons_self)
      have hq : c ≠ '\\' := fun hq => h.noLast (hq ▸ rfl)
      exact .plain hd hq .nil
  | c :: d :: s, h => by
      have hquote : ∀ e ∈ c :: d :: s, e ≠ '"' := fun e he heq => h.noQuote (heq ▸ he)
      have hd : d ≠ '"' := hquote d (by simp)
      by_cases hq : c = '\\'
      · subst hq
        have hnext : d ≠ '\\' := fun hq => h.noPair ⟨[], s, by rw [hq]; rfl⟩
        exact .kept hd hnext (inside_of_isVerbatim ((isVerbatim_backslash_cons_iff hd hnext).mp h))
      · have hc : c ≠ '"' := hquote c (by simp)
        exact .plain hc hq (inside_of_isVerbatim ((isVerbatim_cons_iff hc hq).mp h))

/-- **The texts that stand for themselves.** -/
lemma inside_self_iff : Inside s s ↔ IsVerbatim s :=
  ⟨fun h => h.isVerbatim rfl, inside_of_isVerbatim⟩

example : IsVerbatim "C:\\My Code\\app.js".toList := by decide

example : ¬IsVerbatim "\\\\server\\share".toList := by decide

/-! ### Characters that are lost -/

variable {last : Bool} {line t₁ t₂ v₁ v₂ : List Char}

/-- A piece stands for itself and has no double quote, or loses a character. -/
lemma Piece.self_or_length_lt (h : Piece last t v) :
    ('"' ∉ t ∧ v.length = t.length) ∨ v.length < t.length := by
  cases h with
  | bare _ _ hd _ => exact .inl ⟨by simpa using Ne.symm hd, rfl⟩
  | escaped => exact .inr (by simp)
  | single => exact .inr (by simp)
  | double hi =>
      have hlength := hi.length_le
      exact .inr (by simp; omega)
  | nothing => exact .inr (by simp)

/-- **A word has no more characters than are written for it**, and fewer if there is a double quote
among these. -/
lemma Word.length_lt_or (h : Word last t v) :
    ('"' ∉ t ∧ v.length ≤ t.length) ∨ v.length < t.length := by
  induction h with
  | one hp =>
      rcases hp.self_or_length_lt with ⟨hnone, hlength⟩ | hless
      · exact .inl ⟨hnone, hlength.le⟩
      · exact .inr hless
  | snoc _ hp ih =>
      simp only [List.mem_append, not_or, List.length_append]
      rcases hp.self_or_length_lt with ⟨hnone, hlength⟩ | hless
      · rcases ih with ⟨hnone', hle⟩ | hless
        · exact .inl ⟨⟨hnone', hnone⟩, by omega⟩
        · exact .inr (by omega)
      · rcases ih with ⟨-, hle⟩ | hless'
        · exact .inr (by omega)
        · exact .inr (by omega)

/-- A word is its first piece, or that and another word. -/
lemma Word.first (h : Word last t v) :
    Piece last t v ∨ ∃ t₁ v₁ t₂ v₂, Piece false t₁ v₁ ∧ Word last t₂ v₂ ∧ t = t₁ ++ t₂ ∧
      v = v₁ ++ v₂ := by
  induction h with
  | one hp => exact .inl hp
  | @snoc last s t u v _ hp ih =>
      right
      rcases ih with hfirst | ⟨t₁, v₁, t₂, v₂, hfirst, hrest, rfl, rfl⟩
      · exact ⟨s, u, t, v, hfirst, .one hp, rfl, rfl⟩
      · exact ⟨t₁, v₁, t₂ ++ t, v₂ ++ v, hfirst, hrest.snoc hp, by simp, by simp⟩

/-- A piece that begins with a double quote is what stands between two of them. -/
lemma Piece.inside (h : Piece last ('"' :: t) v) : ∃ t', Inside t' v ∧ t = t' ++ ['"'] := by
  generalize heq : '"' :: t = line at h
  cases h with
  | bare _ _ hd _ => exact absurd (List.cons.inj heq).1.symm hd
  | escaped | nothing => exact absurd (List.cons.inj heq).1 (by decide)
  | single => exact absurd (List.cons.inj heq).1 (by decide)
  | double hi => exact ⟨_, hi, (List.cons.inj heq).2⟩

/-- A line of one word that has no blanks at its ends is that word. -/
lemma word_of_written (h : Written line [v]) (hends : HasSoundEnds line) : Word true line v := by
  generalize hvs : [v] = vs at h
  cases h with
  | blank => cases hvs
  | @last gap t v hgap hword =>
      obtain rfl := List.singleton_inj.mp hvs
      cases gap with
      | nil => exact hword
      | cons c gap =>
          have hc := hends.head c rfl
          rw [hgap c List.mem_cons_self] at hc
          cases hc
  | @cons gap t v rest c vs hgap hword hc hrest =>
      obtain ⟨rfl, rfl⟩ := List.cons.inj hvs
      cases hrest with
      | blank hrest =>
          -- the line would end in a blank
          obtain ⟨front, d, hd⟩ := (c :: rest).eq_nil_or_concat'.resolve_left (List.cons_ne_nil c rest)
          have hblank : ∀ e ∈ c :: rest, isBlank e = true := List.forall_mem_cons.mpr ⟨hc, hrest⟩
          have hlast := hends.last d (by simp [hd])
          rw [hblank d (by simp [hd])] at hlast
          cases hlast

/-- **A text that is read as itself between double quotes stands for itself.** -/
lemma inside_of_written (h : Written ('"' :: s ++ ['"']) [s]) : Inside s s := by
  have hends : HasSoundEnds ('"' :: s ++ ['"']) := by
    have hquote : isBlank '"' = false := by decide
    constructor
    · simp [hquote]
    · simp [List.getLast?_cons, hquote]
  rcases (word_of_written h hends).first with hpiece | ⟨t₁, v₁, t₂, v₂, hpiece, hword, heq, hs⟩
  · obtain ⟨t, hinside, heq⟩ := hpiece.inside
    rwa [List.append_cancel_right heq.symm] at hinside
  · -- the quote in front and the one behind the first piece are lost, and another one after them
    obtain ⟨c, x, rfl, -⟩ := (Word.one hpiece).head
    obtain ⟨d, y, rfl, -⟩ := hword.head
    rw [List.cons_append, List.cons_append, List.cons.injEq] at heq
    obtain ⟨rfl, heq⟩ := heq
    obtain ⟨t, hinside, rfl⟩ := hpiece.inside
    have hquote : '"' ∈ d :: y := by
      have hlast := congrArg List.getLast? heq
      rw [List.getLast?_append_cons, List.getLast?_append_cons, List.getLast?_singleton] at hlast
      exact List.mem_of_getLast? hlast.symm
    have hfirst := hinside.length_le
    have hrest := hword.length_lt_or.resolve_left fun h => h.1 hquote
    have hlength := congrArg List.length heq
    rw [hs] at hlength
    simp only [List.length_append, List.length_cons, List.length_nil] at hlength hrest
    omega

end Written

/-- **The texts that can be typed between double quotes as they are.**  The one word on the line is
the text exactly if there is no double quote in it, no backslash next to another one, and none at
its end. -/
theorem words?_quoted_iff (p : String) :
    words? ("\"" ++ p ++ "\"") = some [p] ↔
      '"' ∉ p.toList ∧ ¬['\\', '\\'] <:+: p.toList ∧ p.toList.getLast? ≠ some '\\' := by
  have hline : ("\"" ++ p ++ "\"").toList = '"' :: p.toList ++ ['"'] := by
    simp [String.toList_append]
  have hwritten : Written ('"' :: p.toList ++ ['"']) [p.toList] ↔ IsVerbatim p.toList := by
    rw [← Written.inside_self_iff]
    constructor
    · exact Written.inside_of_written
    · intro h
      exact (Written.Word.one (.double h)).written
  have hread : words? ("\"" ++ p ++ "\"") = some [p] ↔
      Scan.words? .between [] ('"' :: p.toList ++ ['"']) = some [p.toList] := by
    have hself : some [p] = (some [p.toList]).map (·.map String.ofList) := by simp
    rw [words?, hline, hself]
    exact (Option.map_injective (List.map_injective_iff.mpr fun _ _ => String.ofList_injective)).eq_iff
  rw [hread, Scan.words?_eq_some_iff_written, hwritten]
  exact ⟨fun h => ⟨h.noQuote, h.noPair, h.noLast⟩, fun h => ⟨h.1, h.2.1, h.2.2⟩⟩

end CodeReview.CommandLine

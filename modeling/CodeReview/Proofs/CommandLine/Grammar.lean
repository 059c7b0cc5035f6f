import CodeReview.Session.Interaction
import Mathlib.Tactic

/-!
# The grammar of command lines

`Written line words` says, without any reader, that `line` is a way to write `words`: words stand
between blanks, a word is a non-empty row of pieces, and a piece is a bare character, a character
after a backslash, a text in single or in double quotes, or a backslash that ends the line.

* `words?_eq_some_iff_written`: the words that are read from a line are the words that it is a way
  to write; in particular no line writes two lists of words.
* `reads_iff_written`: the same for texts, together with what a session answers to a line that
  writes nothing.

The reader is followed in both directions through `Fits`, which says what the rest of a line has to
be, given where the reader stands.
-/

namespace CodeReview.CommandLine

open CodeReview.Text

/-! ### The grammar -/

namespace Written

/-- What stands between double quotes, and what it stands for.  A backslash before a double quote
or a backslash belongs to it; any other is itself. -/
inductive Inside : List Char → List Char → Prop
  | nil : Inside [] []
  | plain {c : Char} {t v : List Char} : c ≠ '"' → c ≠ '\\' → Inside t v → Inside (c :: t) (c :: v)
  | quote {t v : List Char} : Inside t v → Inside ('\\' :: '"' :: t) ('"' :: v)
  | backslash {t v : List Char} : Inside t v → Inside ('\\' :: '\\' :: t) ('\\' :: v)
  | kept {c : Char} {t v : List Char} : c ≠ '"' → c ≠ '\\' → Inside t v →
      Inside ('\\' :: c :: t) ('\\' :: c :: v)

/-- A piece of a word and what it stands for.  Some pieces are possible only where they are the
`last` of the line. -/
inductive Piece : Bool → List Char → List Char → Prop
  | bare {last : Bool} {c : Char} : isBlank c = false → c ≠ '\'' → c ≠ '"' → c ≠ '\\' →
      Piece last [c] [c]
  | escaped {last : Bool} {c : Char} : Piece last ['\\', c] [c]
  | single {last : Bool} {t : List Char} : '\'' ∉ t → Piece last ('\'' :: t ++ ['\'']) t
  | double {last : Bool} {t v : List Char} : Inside t v → Piece last ('"' :: t ++ ['"']) v
  | nothing : Piece true ['\\'] []

/-- A row of pieces and the word that it stands for. -/
inductive Word : Bool → List Char → List Char → Prop
  | one {last : Bool} {t v : List Char} : Piece last t v → Word last t v
  | snoc {last : Bool} {s t u v : List Char} : Word false s u → Piece last t v →
      Word last (s ++ t) (u ++ v)

end Written

open Written in
/-- A line and the words that it is a way to write. -/
inductive Written : List Char → List (List Char) → Prop
  | blank {gap : List Char} : (∀ c ∈ gap, isBlank c = true) → Written gap []
  | last {gap t v : List Char} : (∀ c ∈ gap, isBlank c = true) → Word true t v →
      Written (gap ++ t) [v]
  | cons {gap t v rest : List Char} {c : Char} {vs : List (List Char)} :
      (∀ c ∈ gap, isBlank c = true) → Word false t v → isBlank c = true → Written rest vs →
      Written (gap ++ t ++ c :: rest) (v :: vs)

namespace Written

variable {gap rest t v w : List Char} {done vs ws : List (List Char)} {last : Bool} {c : Char}

/-- A word that ends the line is a line of one word. -/
lemma Word.written (h : Word true t v) : Written t [v] := @Written.last [] t v (by simp) h

/-- A word, a blank and a line behind it make a line with one word more. -/
lemma Word.written_cons (h : Word false t v) (hc : isBlank c = true) (hr : Written rest vs) :
    Written (t ++ c :: rest) (v :: vs) := @Written.cons [] t v rest c vs (by simp) h hc hr

/-- What is a word inside a line is one at its end, too. -/
lemma Word.ending (h : Word false t v) : Word true t v := by
  have hpiece : ∀ {t v : List Char}, Piece false t v → Piece true t v := by
    intro t v h
    cases h with
    | bare hb hs hd hq => exact .bare hb hs hd hq
    | escaped => exact .escaped
    | single hs => exact .single hs
    | double hd => exact .double hd
  cases h with
  | one hp => exact .one (hpiece hp)
  | snoc hw hp => exact .snoc hw (hpiece hp)

/-- A word does not begin with a blank. -/
lemma Word.head (h : Word last t v) : ∃ c t', t = c :: t' ∧ isBlank c = false := by
  induction h with
  | one hp =>
      cases hp with
      | bare hb => exact ⟨_, _, rfl, hb⟩
      | escaped | single | double | nothing => exact ⟨_, _, rfl, by decide⟩
  | snoc _ _ ih =>
      obtain ⟨c, t', rfl, hc⟩ := ih
      exact ⟨c, _, rfl, hc⟩

/-- A backslash that escapes nothing is itself between double quotes. -/
lemma Inside.lone {r : List Char} (h : Inside t v)
    (hd : ∀ r', t ++ '"' :: r ≠ '"' :: r') (hq : ∀ r', t ++ '"' :: r ≠ '\\' :: r') :
    Inside ('\\' :: t) ('\\' :: v) := by
  cases h with
  | nil => exact absurd rfl (hd r)
  | plain hcd hcq h => exact .kept hcd hcq h
  | quote | backslash | kept => exact absurd rfl (hq _)

/-- A blank in front of a line changes nothing about its words. -/
lemma blank_cons (hc : isBlank c = true) (h : Written rest vs) : Written (c :: rest) vs := by
  have hgap : ∀ {gap : List Char}, (∀ d ∈ gap, isBlank d = true) →
      ∀ d ∈ c :: gap, isBlank d = true := fun hg => List.forall_mem_cons.mpr ⟨hc, hg⟩
  cases h with
  | blank hg => exact .blank (hgap hg)
  | last hg hw => exact .last (hgap hg) hw
  | cons hg hw hb hrest => exact .cons (hgap hg) hw hb hrest

end Written

/-! ### What the reader makes of written words -/

namespace Scan

open Written

variable {gap rest t v w : List Char} {done vs ws : List (List Char)} {last : Bool} {c : Char}

/-! A step of the reader that depends on more than one character is stated by itself. -/

/-- Between words a blank is passed over. -/
lemma words?_between_blank (hc : isBlank c = true) :
    words? between done (c :: rest) = words? between done rest := by
  have hq : c ≠ '\\' := by
    rintro rfl
    exact absurd hc (by decide)
  rw [words?.eq_def]
  split <;> simp_all

/-- Between words anything but a blank begins a word. -/
lemma words?_between_of_not_blank (hc : isBlank c = false) :
    words? between done (c :: rest) = words? (bare []) done (c :: rest) := by
  rw [words?.eq_def, words?.eq_def]
  split <;> simp_all

/-- Outside quotes a blank ends the word under way. -/
lemma words?_bare_blank (hc : isBlank c = true) :
    words? (bare w) done (c :: rest) = words? between (w.reverse :: done) rest := by
  have hq : c ≠ '\\' := by
    rintro rfl
    exact absurd hc (by decide)
  rw [words?.eq_def]
  split <;> simp_all

/-- Outside quotes a character that means nothing special is added to the word under way. -/
lemma words?_bare_plain (hc : isBlank c = false) (hs : c ≠ '\'') (hd : c ≠ '"') (hq : c ≠ '\\') :
    words? (bare w) done (c :: rest) = words? (bare (c :: w)) done rest := by
  rw [words?.eq_def]
  split <;> simp_all

/-- Between double quotes a character that means nothing special is added to the word. -/
lemma words?_double_plain (hd : c ≠ '"') (hq : c ≠ '\\') :
    words? (double w) done (c :: rest) = words? (double (c :: w)) done rest := by
  rw [words?.eq_def]
  split <;> simp_all

/-- Between double quotes a backslash is added to the word, unless a quote or another backslash
follows. -/
lemma words?_double_lone (hd : c ≠ '"') (hq : c ≠ '\\') :
    words? (double w) done ('\\' :: c :: rest) = words? (double ('\\' :: w)) done (c :: rest) := by
  rw [words?.eq_def]
  split <;> grind

/-! From here on a row of characters is taken at once. -/

/-- A row of blanks between words is passed over. -/
lemma words?_gap (hg : ∀ c ∈ gap, isBlank c = true) :
    words? between done (gap ++ rest) = words? between done rest := by
  induction gap with
  | nil => rfl
  | cons c gap ih =>
      obtain ⟨hc, hgap⟩ := List.forall_mem_cons.mp hg
      rw [List.cons_append, words?_between_blank hc, ih hgap]

/-- A text between single quotes is added to the word as it stands. -/
lemma words?_single (ht : '\'' ∉ t) :
    words? (single w) done (t ++ '\'' :: rest) = words? (bare (t.reverse ++ w)) done rest := by
  induction t generalizing w with
  | nil => rfl
  | cons c t ih =>
      rw [List.mem_cons, not_or] at ht
      have hstep : words? (single w) done (c :: (t ++ '\'' :: rest)) =
          words? (single (c :: w)) done (t ++ '\'' :: rest) := if_neg (Ne.symm ht.1)
      rw [List.cons_append, hstep, ih ht.2, List.reverse_cons, List.append_assoc]
      rfl

/-- What stands between double quotes adds to the word what it stands for. -/
lemma words?_double (ht : Inside t v) :
    words? (double w) done (t ++ '"' :: rest) = words? (bare (v.reverse ++ w)) done rest := by
  have hcons : ∀ (d : Char) (v w : List Char), (d :: v).reverse ++ w = v.reverse ++ (d :: w) :=
    fun d v w => by rw [List.reverse_cons, List.append_assoc, List.singleton_append]
  induction ht generalizing w with
  | nil => rfl
  | plain hd hq _ ih => rw [List.cons_append, words?_double_plain hd hq, ih, hcons]
  | quote _ ih | backslash _ ih =>
      rw [hcons, ← ih]
      rfl
  | kept hd hq _ ih =>
      rw [hcons, hcons, ← ih, List.cons_append, List.cons_append, words?_double_lone hd hq,
        words?_double_plain hd hq]

/-- A piece adds to the word what it stands for. -/
lemma words?_piece (hp : Piece false t v) :
    words? (bare w) done (t ++ rest) = words? (bare (v.reverse ++ w)) done rest := by
  cases hp with
  | bare hb hs hd hq => exact words?_bare_plain hb hs hd hq
  | escaped => rfl
  | single hs =>
      rw [← words?_single hs, List.append_assoc]
      rfl
  | double hd =>
      rw [← words?_double hd, List.append_assoc]
      rfl

/-- A row of pieces adds to the word what it stands for. -/
lemma words?_word (hw : Word false t v) :
    words? (bare w) done (t ++ rest) = words? (bare (v.reverse ++ w)) done rest := by
  generalize hl : false = last at hw
  induction hw generalizing rest w with
  | one hp => exact words?_piece (hl ▸ hp)
  | snoc hw hp ih =>
      subst hl
      rw [List.append_assoc, ih rfl, words?_piece hp, List.reverse_append, List.append_assoc]

/-- At the end of the line the word under way is the last one. -/
lemma words?_bare_nil : words? (bare w) done [] = some (done.reverse ++ [w.reverse]) :=
  congrArg some (List.reverse_cons)

/-- The piece that ends a line. -/
lemma words?_last_piece (hp : Piece true t v) :
    words? (bare w) done t = some (done.reverse ++ [w.reverse ++ v]) := by
  have hcomplete : Piece false t v →
      words? (bare w) done t = some (done.reverse ++ [w.reverse ++ v]) := by
    intro hp
    rw [← List.append_nil t, words?_piece hp, words?_bare_nil, List.reverse_append,
      List.reverse_reverse]
  cases hp with
  | bare hb hs hd hq => exact hcomplete (.bare hb hs hd hq)
  | escaped => exact hcomplete .escaped
  | single hs => exact hcomplete (.single hs)
  | double hd => exact hcomplete (.double hd)
  | nothing =>
      rw [List.append_nil]
      exact words?_bare_nil

/-- The word that ends a line. -/
lemma words?_last_word (hw : Word true t v) :
    words? (bare []) done t = some (done.reverse ++ [v]) := by
  cases hw with
  | one hp => exact words?_last_piece hp
  | snoc hw hp => rw [words?_word hw, words?_last_piece hp, List.append_nil, List.reverse_reverse]

/-- The words that a line writes are read from it. -/
lemma words?_of_written (h : Written t vs) : words? between done t = some (done.reverse ++ vs) := by
  induction h generalizing done with
  | @blank gap hg =>
      rw [← List.append_nil gap, words?_gap hg, List.append_nil]
      rfl
  | last hg hw =>
      obtain ⟨c, t', rfl, hc⟩ := hw.head
      rw [words?_gap hg, words?_between_of_not_blank hc, words?_last_word hw]
  | cons hg hw hb _ ih =>
      obtain ⟨c, t', rfl, hc⟩ := hw.head
      rw [List.append_assoc, words?_gap hg, List.cons_append, words?_between_of_not_blank hc,
        ← List.cons_append, words?_word hw, words?_bare_blank hb, ih]
      simp

/-! ### What the reader accepts -/

/-- Wherever the word under way was written, the line with `rest` after it writes `vs`. -/
def Completes (w rest : List Char) (vs : List (List Char)) : Prop :=
  ∀ t, Word false t w.reverse → Written (t ++ rest) vs

/-- What the rest of a line has to be where the reader stands, so that the words from the one under
way on are `vs`. -/
def Fits : Scan → List Char → List (List Char) → Prop
  | between, rest, vs => Written rest vs
  | bare w, rest, vs => Completes w rest vs
  | single w, rest, vs =>
    ∃ t r, rest = t ++ '\'' :: r ∧ '\'' ∉ t ∧ Completes (t.reverse ++ w) r vs
  | double w, rest, vs =>
    ∃ t v r, rest = t ++ '"' :: r ∧ Inside t v ∧ Completes (v.reverse ++ w) r vs

/-- A first piece begins a word, which what follows completes. -/
lemma Completes.begin (hp : Piece false t v) (h : Completes v.reverse rest vs) :
    Written (t ++ rest) vs :=
  h t (.one (v.reverse_reverse.symm ▸ hp))

/-- A further piece is added to the word under way. -/
lemma Completes.piece (hp : Piece false t v) (h : Completes (v.reverse ++ w) rest vs) :
    Completes w (t ++ rest) vs := by
  intro s hs
  have hword : Word false (s ++ t) (v.reverse ++ w).reverse := by
    rw [List.reverse_append, List.reverse_reverse]
    exact .snoc hs hp
  rw [← List.append_assoc]
  exact h _ hword

/-- Where nothing is left, the word under way is complete. -/
lemma completes_nil : Completes w [] [w.reverse] := by
  intro t ht
  rw [List.append_nil]
  exact ht.ending.written

/-- A backslash that ends the line adds nothing to the word under way. -/
lemma completes_backslash : Completes w ['\\'] [w.reverse] := by
  intro t ht
  have hword : Word true (t ++ ['\\']) (w.reverse ++ []) := .snoc ht .nothing
  rw [List.append_nil] at hword
  exact hword.written

/-- A blank completes the word under way; the rest of the line has the other words. -/
lemma Completes.blank (hc : isBlank c = true) (h : Written rest vs) :
    Completes w (c :: rest) (w.reverse :: vs) :=
  fun _ ht => ht.written_cons hc h

/-- Where no backslash is read with what follows it, the character is none. -/
lemma ne_backslash (hend : c = '\\' → rest = [] → False)
    (hnext : ∀ d r, c = '\\' → rest = d :: r → False) : c ≠ '\\' := by
  intro hq
  cases rest with
  | nil => exact hend hq rfl
  | cons d r => exact hnext d r hq rfl

/-- Characters that the reader takes for bare ones are bare pieces. -/
lemma piece_of_bare (hb : ¬isBlank c = true) (hs : c ≠ '\'') (hd : c ≠ '"')
    (hend : c = '\\' → rest = [] → False)
    (hnext : ∀ d r, c = '\\' → rest = d :: r → False) : Piece false [c] [c] :=
  .bare (by simpa using hb) hs hd (ne_backslash hend hnext)

/-- What the reader accepts is what the rest of the line has to be. -/
lemma fits_of_words? (s : Scan) (done : List (List Char)) (rest : List Char)
    (h : words? s done rest = some ws) : ∃ vs, ws = done.reverse ++ vs ∧ Fits s rest vs := by
  fun_induction words? s done rest with
  | case1 done => exact ⟨[], by simp_all, .blank (by simp)⟩
  | case2 w done => exact ⟨[w.reverse], by simp_all, completes_nil⟩
  | case3 | case4 => cases h
  | case5 w done rest ih =>
      -- a single quote closes
      obtain ⟨vs, rfl, hfits⟩ := ih h
      exact ⟨vs, rfl, [], rest, rfl, by simp, hfits⟩
  | case6 w done c rest hc ih =>
      obtain ⟨vs, rfl, t, r, rfl, ht, hfits⟩ := ih h
      refine ⟨vs, rfl, c :: t, r, rfl, by simp [ht, Ne.symm hc], ?_⟩
      simpa using hfits
  | case7 w done rest ih =>
      obtain ⟨vs, rfl, t, v, r, rfl, ht, hfits⟩ := ih h
      exact ⟨vs, rfl, _, _, r, rfl, .quote ht, by simpa using hfits⟩
  | case8 w done rest ih =>
      obtain ⟨vs, rfl, t, v, r, rfl, ht, hfits⟩ := ih h
      exact ⟨vs, rfl, _, _, r, rfl, .backslash ht, by simpa using hfits⟩
  | case9 w done rest _ _ ih =>
      -- a double quote closes
      obtain ⟨vs, rfl, hfits⟩ := ih h
      exact ⟨vs, rfl, [], [], rest, rfl, .nil, hfits⟩
  | case10 w done c rest hd hq hc ih =>
      obtain ⟨vs, rfl, t, v, r, rfl, ht, hfits⟩ := ih h
      have hinside : Inside (c :: t) (c :: v) := by
        by_cases hcq : c = '\\'
        · subst hcq
          exact ht.lone (fun r' he => hd r' rfl he) (fun r' he => hq r' rfl he)
        · exact .plain hc hcq ht
      exact ⟨vs, rfl, _, _, r, rfl, hinside, by simpa using hfits⟩
  | case11 done ih =>
      refine ⟨[[]], (Option.some.inj (words?_bare_nil.symm.trans h)).symm, ?_⟩
      exact Word.written (.one .nothing)
  | case12 done c rest ih =>
      obtain ⟨vs, rfl, hfits⟩ := ih h
      exact ⟨vs, rfl, Completes.begin (v := [c]) .escaped hfits⟩
  | case13 done c rest _ _ hc ih =>
      obtain ⟨vs, rfl, hfits⟩ := ih h
      exact ⟨vs, rfl, hfits.blank_cons hc⟩
  | case14 done rest _ _ _ ih =>
      obtain ⟨vs, rfl, t, r, rfl, ht, hfits⟩ := ih h
      rw [List.append_nil] at hfits
      exact ⟨vs, rfl, by simpa [Fits] using Completes.begin (.single ht) hfits⟩
  | case15 done rest _ _ _ _ ih =>
      obtain ⟨vs, rfl, t, v, r, rfl, ht, hfits⟩ := ih h
      rw [List.append_nil] at hfits
      exact ⟨vs, rfl, by simpa [Fits] using Completes.begin (.double ht) hfits⟩
  | case16 done c rest hend hq hb hs hd ih =>
      obtain ⟨vs, rfl, hfits⟩ := ih h
      exact ⟨vs, rfl, Completes.begin (v := [c]) (piece_of_bare hb hs hd hend hq) hfits⟩
  | case17 w done ih =>
      exact ⟨[w.reverse], (Option.some.inj (words?_bare_nil.symm.trans h)).symm, completes_backslash⟩
  | case18 w done c rest ih =>
      obtain ⟨vs, rfl, hfits⟩ := ih h
      exact ⟨vs, rfl, Completes.piece (v := [c]) .escaped hfits⟩
  | case19 w done c rest _ _ hc ih =>
      obtain ⟨vs, rfl, hfits⟩ := ih h
      exact ⟨w.reverse :: vs, by simp, Completes.blank hc hfits⟩
  | case20 w done rest _ _ _ ih =>
      obtain ⟨vs, rfl, t, r, rfl, ht, hfits⟩ := ih h
      exact ⟨vs, rfl, by simpa [Fits] using Completes.piece (.single ht) hfits⟩
  | case21 w done rest _ _ _ _ ih =>
      obtain ⟨vs, rfl, t, v, r, rfl, ht, hfits⟩ := ih h
      exact ⟨vs, rfl, by simpa [Fits] using Completes.piece (.double ht) hfits⟩
  | case22 w done c rest hend hq hb hs hd ih =>
      obtain ⟨vs, rfl, hfits⟩ := ih h
      exact ⟨vs, rfl, Completes.piece (v := [c]) (piece_of_bare hb hs hd hend hq) hfits⟩

/-- **The reader accepts exactly the grammar**, and reads from a line the words that it writes. -/
theorem words?_eq_some_iff_written {line : List Char} {words : List (List Char)} :
    words? between [] line = some words ↔ Written line words := by
  constructor
  · intro h
    obtain ⟨vs, rfl, hfits⟩ := fits_of_words? _ _ _ h
    exact hfits
  · exact words?_of_written

end Scan

/-- **Lines that are read, and lines that are not.**  The words of a line are the words that it
writes by the grammar; a session answers a line that writes nothing with the whole line and the
reason, and goes on as it was. -/
theorem reads_iff_written (line : String) :
    (∀ words : List String,
      words? line = some words ↔ Written line.toList (words.map String.toList)) ∧
    ((¬∃ words, Written line.toList words) → ∀ s : Session,
      s.runLine line = pure (.error (.userInput line "unterminated quote"), s)) := by
  constructor
  · intro words
    rw [← Scan.words?_eq_some_iff_written, words?]
    cases Scan.words? .between [] line.toList with
    | none => simp
    | some ws =>
        rw [Option.map_some, Option.some.injEq, Option.some.injEq]
        constructor
        · rintro rfl
          simp [Function.comp_def]
        · rintro rfl
          simp [Function.comp_def]
  · intro hnone s
    have hwords : words? line = none := by
      rw [words?, Option.map_eq_none_iff, Option.eq_none_iff_forall_ne_some]
      exact fun ws h => hnone ⟨ws, Scan.words?_eq_some_iff_written.mp h⟩
    simp only [Session.runLine, hwords]

/-- A backslash takes the second quote of this line, so the first stays open. -/
theorem runLine_escaped_quote :
    (¬∃ words, Written "-f \"C:\\src\\\"".toList words) ∧ ∀ s : Session,
      s.runLine "-f \"C:\\src\\\"" =
        pure (.error (.userInput "-f \"C:\\src\\\"" "unterminated quote"), s) := by
  have hnone : ¬∃ words, Written "-f \"C:\\src\\\"".toList words := by
    rintro ⟨words, h⟩
    have hread : Scan.words? .between [] "-f \"C:\\src\\\"".toList = none := by decide +kernel
    rw [Scan.words?_of_written h] at hread
    cases hread
  exact ⟨hnone, (reads_iff_written _).2 hnone⟩

end CodeReview.CommandLine

import CodeReview.Proofs.CommandLine.Grammar

/-!
# Writing words so that they are read back

Each word of a list can be written in one of three styles: between double quotes, between single
quotes, or with a backslash before every character.  A `Spelling` is a word in a style, with the
blanks that follow it.

* `words?_spelled`: whatever styles and blanks are chosen, the words that were written are read.
* `quotedLine` writes any list of words: all of them between double quotes, with single spaces.
  `words?_quotedLine` is what it is for.

By the grammar each style makes a word of pieces (`Style.word_write`), so that nothing has to be said
here about how the reader goes through a line.
-/

namespace CodeReview.CommandLine

open CodeReview.Text

/-! ### Styles -/

/-- A way to write a word. -/
inductive Style where
  /-- Between double quotes. -/
  | double
  /-- Between single quotes. -/
  | single
  /-- With a backslash before every character. -/
  | escaped
  deriving Repr, DecidableEq

namespace Style

/-- What stands at both ends of a word. -/
def fence : Style → List Char
  | double => ['"']
  | single => ['\'']
  | escaped => []

/-- What is written for a character of a word. -/
def put : Style → Char → List Char
  | double, c => if c = '"' ∨ c = '\\' then ['\\', c] else [c]
  | single, c => [c]
  | escaped, c => ['\\', c]

/-- A word as it is written. -/
def write (s : Style) (word : List Char) : List Char := s.fence ++ word.flatMap s.put ++ s.fence

/-- Which words a style can write. -/
def Suits : Style → List Char → Prop
  | double, _ => True
  | single, word => '\'' ∉ word
  | escaped, word => word ≠ []

instance : (s : Style) → (word : List Char) → Decidable (s.Suits word)
  | double, _ => .isTrue trivial
  | single, word => inferInstanceAs (Decidable ('\'' ∉ word))
  | escaped, word => inferInstanceAs (Decidable (word ≠ []))

open Written

/-- What is put between double quotes for a word stands for that word. -/
lemma inside_put (word : List Char) : Inside (word.flatMap double.put) word := by
  induction word with
  | nil => exact .nil
  | cons c rest ih =>
      rw [List.flatMap_cons]
      by_cases hd : c = '"'
      · subst hd
        exact .quote ih
      · by_cases hq : c = '\\'
        · subst hq
          exact .backslash ih
        · have hput : double.put c = [c] := if_neg (by simp [hd, hq])
          rw [hput]
          exact .plain hd hq ih

/-- Between single quotes a word is put as it is. -/
lemma flatMap_single_put (word : List Char) : word.flatMap single.put = word :=
  List.flatMap_singleton' word

/-- A word to which escaped characters are added is a word. -/
lemma word_append_escaped {t v : List Char} (h : Word false t v) (word : List Char) :
    Word false (t ++ word.flatMap escaped.put) (v ++ word) := by
  induction word generalizing t v with
  | nil => simpa using h
  | cons c rest ih =>
      have hrest := ih (h.snoc (.escaped (c := c)))
      simpa [put] using hrest

/-- What a style writes is a word, and stands for the word that was to be written. -/
lemma word_write {s : Style} {word : List Char} (h : s.Suits word) :
    Word false (s.write word) word := by
  cases s with
  | double => exact .one (.double (inside_put word))
  | single =>
      rw [write, flatMap_single_put]
      exact .one (.single h)
  | escaped =>
      cases word with
      | nil => exact absurd rfl h
      | cons c rest =>
          have hword := word_append_escaped (.one (.escaped (c := c))) rest
          simpa [write, put, fence] using hword

end Style

/-! ### Lines -/

/-- A word in a style, with what separates it from the next word or from the end of the line. -/
structure Spelling where
  word : String
  style : Style
  gap : String
  deriving Repr, DecidableEq

namespace Spelling

/-- The word can be written in its style, and blanks follow it. -/
structure IsSound (s : Spelling) : Prop where
  suits : s.style.Suits s.word.toList
  blank : allBlank s.gap = true

instance (s : Spelling) : Decidable s.IsSound :=
  decidable_of_iff (s.style.Suits s.word.toList ∧ allBlank s.gap = true)
    ⟨fun h => ⟨h.1, h.2⟩, fun h => ⟨h.suits, h.blank⟩⟩

/-- The word as it is written, and what follows it. -/
def text (s : Spelling) : List Char := s.style.write s.word.toList ++ s.gap.toList

end Spelling

/-- The line on which words are spelled one after the other, behind blanks. -/
def spelled (lead : String) (spellings : List Spelling) : String :=
  String.ofList (lead.toList ++ spellings.flatMap Spelling.text)

/-- A text of blanks has no other characters. -/
lemma blank_of_allBlank {s : String} (h : allBlank s = true) : ∀ c ∈ s.toList, isBlank c = true :=
  List.all_eq_true.mp h

/-- Words that are spelled one after the other are written by the grammar.  Only the last of them
may have nothing behind it. -/
lemma written_flatMap_text {spellings : List Spelling} (hsound : ∀ s ∈ spellings, s.IsSound)
    (hgaps : ∀ s ∈ spellings.dropLast, s.gap ≠ "") {lead : List Char}
    (hlead : ∀ c ∈ lead, isBlank c = true) :
    Written (lead ++ spellings.flatMap Spelling.text) (spellings.map fun s => s.word.toList) := by
  induction spellings generalizing lead with
  | nil =>
      rw [List.flatMap_nil, List.append_nil]
      exact .blank hlead
  | cons s rest ih =>
      obtain ⟨⟨hsuits, hblank⟩, hrest⟩ := List.forall_mem_cons.mp hsound
      have hword := Style.word_write hsuits
      have hgap := blank_of_allBlank hblank
      rw [List.flatMap_cons, Spelling.text, List.map_cons]
      cases hchars : s.gap.toList with
      | nil =>
          -- nothing follows the word, so it is the last one
          have hlast : rest = [] := by
            by_contra hne
            have hmem : s ∈ (s :: rest).dropLast := by
              rw [List.dropLast_cons_of_ne_nil hne]
              exact List.mem_cons_self
            exact hgaps s hmem (String.toList_eq_nil_iff.mp hchars)
          subst hlast
          rw [List.append_nil, List.flatMap_nil, List.append_nil]
          exact .last hlead hword.ending
      | cons c gap =>
          rw [hchars, List.forall_mem_cons] at hgap
          have hnext : ∀ s ∈ rest.dropLast, s.gap ≠ "" := by
            intro s' hs'
            have hne : rest ≠ [] := by
              rintro rfl
              exact absurd hs' List.not_mem_nil
            rw [List.dropLast_cons_of_ne_nil hne] at hgaps
            exact hgaps s' (List.mem_cons_of_mem s hs')
          have hwritten := Written.cons hlead hword hgap.1 (ih hrest hnext hgap.2)
          simpa using hwritten

/-- The words that a line writes by the grammar are read from it. -/
lemma words?_of_written {line : String} {words : List String}
    (h : Written line.toList (words.map String.toList)) : words? line = some words := by
  rw [words?, Scan.words?_of_written h]
  simp

/-- **What is spelled is read.**  Whatever words there are, in whichever styles they are written and
whatever blanks stand between them and at the ends, reading the line gives the words back. -/
theorem words?_spelled {lead : String} {spellings : List Spelling} (hlead : allBlank lead = true)
    (hsound : ∀ s ∈ spellings, s.IsSound) (hgaps : ∀ s ∈ spellings.dropLast, s.gap ≠ "") :
    words? (spelled lead spellings) = some (spellings.map Spelling.word) := by
  refine words?_of_written ?_
  rw [spelled, String.toList_ofList, List.map_map]
  exact written_flatMap_text hsound hgaps (blank_of_allBlank hlead)

/-- All three styles, with an empty word, words of blanks, quotes and backslashes, and nothing behind
the last word. -/
theorem words?_spelled_mixed :
    let spellings : List Spelling :=
      [⟨"C:\\\"src\"\\", .double, "\t "⟩, ⟨"", .single, "\u2003"⟩, ⟨"\\\" ", .single, "\n"⟩,
        ⟨" '\\\"é", .escaped, ""⟩]
    spelled " " spellings =
        " \"C:\\\\\\\"src\\\"\\\\\"\t ''\u2003'\\\" '\n\\ \\'\\\\\\\"\\é" ∧
      words? (spelled " " spellings) = some ["C:\\\"src\"\\", "", "\\\" ", " '\\\"é"] := by
  intro spellings
  exact ⟨by decide +kernel,
    words?_spelled (by decide +kernel) (by decide +kernel) (by decide +kernel)⟩

/-! ### Every word between double quotes -/

/-- The line on which all words stand between double quotes, with single spaces between them. -/
def quotedLine (words : List String) : String :=
  String.ofList ([' '].intercalate (words.map fun w => Style.double.write w.toList))

/-- A quoted line writes its words. -/
lemma words?_quotedLine (words : List String) : words? (quotedLine words) = some words := by
  refine words?_of_written ?_
  rw [quotedLine, String.toList_ofList]
  induction words with
  | nil => exact .blank (by simp)
  | cons w rest ih =>
      have hword := @Style.word_write .double w.toList trivial
      cases rest with
      | nil => simpa using hword.ending.written
      | cons w' rest =>
          have hline := hword.written_cons (c := ' ') (by decide) ih
          simpa using hline

/-- A line of several words is the first of them, a space, and the line of the others. -/
lemma toList_quotedLine_cons_cons (w w' : String) (rest : List String) :
    (quotedLine (w :: w' :: rest)).toList =
      Style.double.write w.toList ++ ' ' :: (quotedLine (w' :: rest)).toList := by
  simp [quotedLine]

/-- A quoted line of at least one word begins and ends in a quote. -/
lemma toList_quotedLine_cons (w : String) (rest : List String) :
    ∃ middle, (quotedLine (w :: rest)).toList = '"' :: (middle ++ ['"']) := by
  induction rest generalizing w with
  | nil =>
      refine ⟨w.toList.flatMap (Style.put .double), ?_⟩
      simp [quotedLine, Style.write, Style.fence]
  | cons w' rest ih =>
      obtain ⟨middle, hmiddle⟩ := ih w'
      refine ⟨w.toList.flatMap (Style.put .double) ++ '"' :: ' ' :: '"' :: middle, ?_⟩
      rw [toList_quotedLine_cons_cons, hmiddle]
      simp [Style.write, Style.fence]

section not_mem

variable {c : Char} (hquote : c ≠ '"') (hbackslash : c ≠ '\\')

include hquote hbackslash

/-- Writing a word between double quotes brings in no character but quotes and backslashes. -/
lemma Style.not_mem_write_double {word : List Char} (h : c ∉ word) :
    c ∉ Style.double.write word := by
  intro hmem
  simp only [write, fence, List.mem_append, List.mem_singleton, hquote, false_or, or_false,
    List.mem_flatMap, put] at hmem
  obtain ⟨d, hd, hput⟩ := hmem
  have hc : c = d := by
    split_ifs at hput <;> simpa [hbackslash] using hput
  exact h (hc ▸ hd)

/-- Quoting puts in quotes, backslashes and spaces, and nothing else. -/
lemma not_mem_quotedLine (hspace : c ≠ ' ') {words : List String} (h : ∀ w ∈ words, c ∉ w.toList) :
    c ∉ (quotedLine words).toList := by
  induction words with
  | nil => simp [quotedLine]
  | cons w rest ih =>
      rw [List.forall_mem_cons] at h
      have hword := Style.not_mem_write_double hquote hbackslash h.1
      cases rest with
      | nil => simpa [quotedLine] using hword
      | cons w' rest =>
          rw [toList_quotedLine_cons_cons, List.mem_append, List.mem_cons]
          exact not_or_intro hword (not_or_intro hspace (ih h.2))

end not_mem

end CodeReview.CommandLine

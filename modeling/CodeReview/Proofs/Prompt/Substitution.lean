import CodeReview.Prompt.Template
import CodeReview.Proofs.Text.Cut
import CodeReview.Proofs.Text.Trim
import Mathlib.Tactic

/-!
# Sequential and simultaneous substitution

A prompt is made by putting one name after the other into a template.  `fill` puts both in at once:
it reads the template a single time and never reads what it wrote.

The marks of every template stand apart (`apart_text`): a mark is bounded by characters that are in
no mark.  Therefore no mark comes into being where a name meets the template, and the second name is
put into the first one exactly where the first one holds the mark of the second.

* `render_eq_fill_iff`: a prompt is what `fill` makes of the two names unless a target language is
  put in and the name of the source language holds its mark; in any case it is what `fill` makes of
  the names after the second was put into the first.
* `render_ne_fill`: the smallest such name.
-/

namespace CodeReview.Prompt

open CodeReview.Text

/-! ### Replacing several texts at once -/

/-- A text and what is to be written for it. -/
structure Rule where
  old : List Char
  new : List Char
  deriving Repr, DecidableEq

/-- Copy `s`, skipping the next `skip` characters.  Where the text of a rule stands, what the first
such rule gives is written. -/
def replaceEachFrom (rules : List Rule) : Nat → List Char → List Char
  | _, [] => []
  | skip + 1, _ :: rest => replaceEachFrom rules skip rest
  | 0, c :: rest =>
    match rules.find? fun r => r.old.isPrefixOf (c :: rest) with
    | some r => r.new ++ replaceEachFrom rules (r.old.length - 1) rest
    | none => c :: replaceEachFrom rules 0 rest

/-- `s` with the texts of the rules replaced simultaneously. -/
def replaceEach (rules : List Rule) (s : List Char) : List Char := replaceEachFrom rules 0 s

section Rules

variable {rules : List Rule} {c : Char} {s x y : List Char}

/-- Replacing one text is the case of one rule. -/
lemma replaceAll_eq_replaceEach (old new s : List Char) :
    replaceAll old new s = replaceEach [⟨old, new⟩] s := by
  have hfrom : ∀ skip, replaceFrom old new skip s = replaceEachFrom [⟨old, new⟩] skip s := by
    induction s with
    | nil => intro skip; cases skip <;> rfl
    | cons c rest ih =>
        intro skip
        cases skip with
        | succ skip => exact ih skip
        | zero =>
            rw [replaceFrom, replaceEachFrom]
            cases hp : old.isPrefixOf (c :: rest) with
            | true => simp [List.find?, hp, ih]
            | false => simp [List.find?, hp, ih]
  exact hfrom 0

/-- A character that is in no text of a rule cuts the work in two. -/
lemma replaceEach_append_cons (hrules : ∀ r ∈ rules, r.old ≠ [] ∧ c ∉ r.old) :
    replaceEach rules (x ++ c :: y) = replaceEach rules x ++ c :: replaceEach rules y := by
  have hfrom : ∀ skip, skip ≤ x.length → replaceEachFrom rules skip (x ++ c :: y) =
      replaceEachFrom rules skip x ++ c :: replaceEachFrom rules 0 y := by
    induction x with
    | nil =>
        intro skip hskip
        obtain rfl : skip = 0 := Nat.le_zero.mp hskip
        have hnone : (rules.find? fun r => r.old.isPrefixOf (c :: y)) = none := by
          rw [List.find?_eq_none]
          intro r hr hp
          obtain ⟨hne, hc⟩ := hrules r hr
          rw [List.isPrefixOf_iff_prefix] at hp
          exact hne (List.prefix_nil.mp ((prefix_append_cons_iff (x := []) hc).mp hp))
        simp only [List.nil_append, replaceEachFrom, hnone]
    | cons d x ih =>
        intro skip hskip
        cases skip with
        | succ skip => exact ih skip (Nat.le_of_succ_le_succ hskip)
        | zero =>
            have hfind : (rules.find? fun r => r.old.isPrefixOf (d :: (x ++ c :: y))) =
                rules.find? fun r => r.old.isPrefixOf (d :: x) := by
              refine List.find?_congr fun r hr => ?_
              rw [Bool.eq_iff_iff, List.isPrefixOf_iff_prefix, List.isPrefixOf_iff_prefix]
              exact prefix_append_cons_iff (x := d :: x) (hrules r hr).2
            rw [List.cons_append, replaceEachFrom, hfind, replaceEachFrom]
            cases hr : rules.find? fun r => r.old.isPrefixOf (d :: x) with
            | none => simp [ih 0 (Nat.zero_le _)]
            | some r =>
                have hp := List.find?_some hr
                have hlen := (List.isPrefixOf_iff_prefix.mp hp).length_le
                rw [List.length_cons] at hlen
                simp [ih (r.old.length - 1) (by omega)]
  exact hfrom 0 (Nat.zero_le _)

/-- Where the text of no rule stands, nothing is replaced. -/
lemma replaceEach_eq_self (h : ∀ r ∈ rules, ¬r.old <:+: s) : replaceEach rules s = s := by
  induction s with
  | nil => rfl
  | cons c rest ih =>
      have hnone : (rules.find? fun r => r.old.isPrefixOf (c :: rest)) = none := by
        rw [List.find?_eq_none]
        exact fun r hr hp => h r hr (List.isPrefixOf_iff_prefix.mp hp).isInfix
      have hrest := ih fun r hr hi => h r hr (List.infix_cons hi)
      unfold replaceEach at hrest ⊢
      rw [replaceEachFrom, hnone]
      exact congrArg _ hrest

/-- A rule whose text stands nowhere does not count. -/
lemma replaceEach_cons_eq {r : Rule} (h : ¬r.old <:+: s) :
    replaceEach (r :: rules) s = replaceEach rules s := by
  have hfrom : ∀ skip, replaceEachFrom (r :: rules) skip s = replaceEachFrom rules skip s := by
    induction s with
    | nil => intro skip; cases skip <;> rfl
    | cons c rest ih =>
        have hrest := ih fun hi => h (List.infix_cons hi)
        intro skip
        cases skip with
        | succ skip => exact hrest skip
        | zero =>
            have hp : r.old.isPrefixOf (c :: rest) = false := by
              rw [Bool.eq_false_iff]
              exact fun hp => h (List.isPrefixOf_iff_prefix.mp hp).isInfix
            simp only [replaceEachFrom, List.find?, hp, hrest]
  exact hfrom 0

/-- The text of the first rule is replaced as a whole. -/
lemma replaceEach_self {r : Rule} (h : r.old ≠ []) : replaceEach (r :: rules) r.old = r.new := by
  have hskip : ∀ s : List Char, replaceEachFrom (r :: rules) s.length s = [] := by
    intro s
    induction s with
    | nil => rfl
    | cons c rest ih => exact ih
  cases hold : r.old with
  | nil => exact absurd hold h
  | cons c rest =>
      have hp : r.old.isPrefixOf (c :: rest) = true := by
        rw [List.isPrefixOf_iff_prefix, hold]
      rw [replaceEach, replaceEachFrom]
      simp only [List.find?, hp]
      rw [hold, List.length_cons, Nat.add_sub_cancel, hskip, List.append_nil]

/-- Where a text does not stand, there is nothing to replace. -/
lemma replaceAll_eq_self {old new : List Char} (h : ¬old <:+: s) :
    replaceAll old new s = s := by
  rw [replaceAll_eq_replaceEach, replaceEach_eq_self (by simpa using h)]

/-- A text that is all there is is replaced as a whole. -/
lemma replaceAll_self {old new : List Char} (h : old ≠ []) : replaceAll old new old = new := by
  rw [replaceAll_eq_replaceEach]
  exact replaceEach_self (r := ⟨old, new⟩) h

end Rules

/-- The search for characters finds whether they stand there. -/
lemma containsChars_iff {part s : List Char} : containsChars part s = true ↔ part <:+: s := by
  induction s with
  | nil => simp [containsChars]
  | cons c rest ih =>
      rw [containsChars, Bool.or_eq_true, ih, List.isPrefixOf_iff_prefix, List.infix_cons_iff]

/-! ### Templates whose marks stand apart -/

/-- The characters of marks. -/
def markChars : List Char := ['\x7b', 'l', 'a', 'n', 'g', 'u', 'e', '_', 't', 'r', '\x7d']

/-- A row of characters that cannot hold a mark, or is one. -/
def isApart (word : List Char) : Bool :=
  !word.contains '\x7b' || word == languageMark.toList || word == targetMark.toList

/-- Every longest row of characters of marks is a mark or cannot hold any; `word` is the row under
way, last first. -/
def apartFrom (word : List Char) : List Char → Bool
  | [] => isApart word.reverse
  | c :: rest =>
    if markChars.contains c then apartFrom (c :: word) rest
    else isApart word.reverse && apartFrom [] rest

/-- A text whose marks stand apart: rows that are marks or cannot hold any, with characters between
them that are in no mark. -/
inductive Apart : List Char → Prop
  | word {w : List Char} : isApart w = true → Apart w
  | cons {w rest : List Char} {c : Char} : isApart w = true → c ∉ markChars → Apart rest →
      Apart (w ++ c :: rest)

/-- Marks that are found to stand apart do. -/
lemma apart_of_apartFrom {word s : List Char} (h : apartFrom word s = true) :
    Apart (word.reverse ++ s) := by
  induction s generalizing word with
  | nil =>
      rw [List.append_nil]
      exact .word h
  | cons c rest ih =>
      rw [apartFrom] at h
      split_ifs at h with hc
      · have hrest := ih h
        rwa [List.reverse_cons, List.append_assoc] at hrest
      · rw [Bool.and_eq_true] at h
        exact .cons h.1 (by simpa using hc) (ih h.2)

/-- The characters of a text are those that it was made from. -/
lemma toList_of_eq {s : String} {l : List Char} (h : s = String.ofList l) : s.toList = l := by
  rw [h, String.toList_ofList]

/-- Texts that are put together have the characters of both. -/
lemma append_of_eq {s t : String} {a b : List Char} (hs : s = String.ofList a)
    (ht : t = String.ofList b) : s ++ t = String.ofList (a ++ b) := by
  rw [hs, ht, String.ofList_append]

/-- A text with room for the source language, and for the target language where there is one. -/
def isTemplate (needsTarget : Bool) (s : List Char) : Bool :=
  apartFrom [] s && containsChars languageMark.toList s &&
    containsChars targetMark.toList s == needsTarget

/-- The characters of a text are read off its pieces before anything is computed. -/
lemma isTemplate_text (o : Operation) :
    isTemplate o.needsTarget (Template.ofOperation o).text.toList = true := by
  rw [Template.text]
  cases o
  all_goals
    dsimp only [Template.ofOperation]
    refine Eq.trans (congrArg _ (toList_of_eq (by repeat' (first | apply append_of_eq | rfl)))) ?_
    decide +kernel

/-- The marks of every template stand apart. -/
lemma apart_text (o : Operation) : Apart (Template.ofOperation o).text.toList := by
  have h := isTemplate_text o
  rw [isTemplate, Bool.and_eq_true, Bool.and_eq_true] at h
  have hapart := apart_of_apartFrom h.1.1
  rwa [List.reverse_nil, List.nil_append] at hapart

/-- Every template has room for the source language. -/
lemma languageMark_infix_text (o : Operation) :
    languageMark.toList <:+: (Template.ofOperation o).text.toList := by
  have h := isTemplate_text o
  rw [isTemplate, Bool.and_eq_true, Bool.and_eq_true] at h
  exact containsChars_iff.mp h.1.2

/-- The mark of the target language is in no template but those with a target language. -/
lemma targetMark_infix_text_iff (o : Operation) :
    targetMark.toList <:+: (Template.ofOperation o).text.toList ↔ o.needsTarget = true := by
  have h := isTemplate_text o
  rw [isTemplate, Bool.and_eq_true, beq_iff_eq] at h
  rw [← containsChars_iff, h.2]

/-! ### Filling a template -/

/-- The rules that put in a source language and, where there is one, a target language. -/
def namesFor (source : List Char) (target : Option (List Char)) : List Rule :=
  ⟨languageMark.toList, source⟩ :: (target.map (Rule.mk targetMark.toList)).toList

/-- The template of an operation with both names put in at once; operations without target language
have one name. -/
def fill (o : Operation) (source target : String) : String :=
  String.ofList (replaceEach
    (namesFor source.toList (if o.needsTarget then some target.toList else none))
    (Template.ofOperation o).text.toList)

/-- The name that a parameter gives. -/
def nameOf (value : Option String) : String := trim (value.getD "")

section Fill

variable {s t w mark : List Char} {c : Char} {target : Option (List Char)} {r : Rule}

/-- The characters of the mark for the source language. -/
lemma toList_languageMark : languageMark.toList =
    ['\x7b', 'l', 'a', 'n', 'g', 'u', 'a', 'g', 'e', '\x7d'] := toList_of_eq rfl

/-- The characters of the mark for the target language. -/
lemma toList_targetMark : targetMark.toList =
    ['\x7b', 't', 'a', 'r', 'g', 'e', 't', '_', 'l', 'a', 'n', 'g', 'u', 'a', 'g', 'e', '\x7d'] :=
  toList_of_eq rfl

/-- A text that stands for a name. -/
def IsMark (mark : List Char) : Prop := mark = languageMark.toList ∨ mark = targetMark.toList

/-- The mark for the source language is a mark. -/
lemma isMark_languageMark : IsMark languageMark.toList := .inl rfl

/-- The mark for the target language is a mark. -/
lemma isMark_targetMark : IsMark targetMark.toList := .inr rfl

/-- Every mark has an opening brace. -/
lemma IsMark.brace_mem (h : IsMark mark) : '\x7b' ∈ mark := by
  rcases h with rfl | rfl
  · simp [toList_languageMark]
  · simp [toList_targetMark]

/-- Marks have no characters but those of marks. -/
lemma IsMark.subset (h : IsMark mark) : mark ⊆ markChars := by
  rcases h with rfl | rfl
  · rw [toList_languageMark]
    decide
  · rw [toList_targetMark]
    decide

/-- No mark is empty. -/
lemma IsMark.ne_nil (h : IsMark mark) : mark ≠ [] := List.ne_nil_of_mem h.brace_mem

/-- A text without an opening brace has no mark. -/
lemma IsMark.not_within (h : IsMark mark) (hw : '\x7b' ∉ w) : ¬mark <:+: w :=
  fun hi => hw (hi.subset h.brace_mem)

/-- The mark for the source language does not stand in the other one. -/
lemma not_languageMark_infix_targetMark : ¬languageMark.toList <:+: targetMark.toList := by
  rw [toList_languageMark, toList_targetMark]
  decide

/-- The mark for the target language does not stand in the other one. -/
lemma not_targetMark_infix_languageMark : ¬targetMark.toList <:+: languageMark.toList := by
  rw [toList_languageMark, toList_targetMark]
  decide

/-- A row stands apart if it is a mark or has no brace to begin one. -/
lemma isApart_iff : isApart w = true ↔ '\x7b' ∉ w ∨ IsMark w := by
  rw [isApart, Bool.or_eq_true, Bool.or_eq_true, Bool.not_eq_true', beq_iff_eq, beq_iff_eq, IsMark,
    or_assoc]
  simp

/-- The rules put in the source language, and the target language where there is one. -/
lemma mem_namesFor_iff : r ∈ namesFor s target ↔ r = ⟨languageMark.toList, s⟩ ∨
    ∃ t, target = some t ∧ r = ⟨targetMark.toList, t⟩ := by
  rw [namesFor, List.mem_cons]
  apply or_congr_right
  rw [Option.mem_toList, Option.map_eq_some_iff]
  simp only [eq_comm]

/-- What is replaced is a mark. -/
lemma isMark_of_mem_namesFor (hr : r ∈ namesFor s target) : IsMark r.old := by
  rcases mem_namesFor_iff.mp hr with rfl | ⟨t, -, rfl⟩
  · exact isMark_languageMark
  · exact isMark_targetMark

/-- A character that marks do not have is not in what the rules replace. -/
lemma marks_of_not_mem (hc : c ∉ markChars) (target : Option (List Char)) :
    ∀ r ∈ namesFor s target, r.old ≠ [] ∧ c ∉ r.old := by
  intro r hr
  have hmark := isMark_of_mem_namesFor hr
  exact ⟨hmark.ne_nil, fun h => hc (hmark.subset h)⟩

/-- A row without a brace is not changed. -/
lemma replaceEach_of_not_mem (hw : '\x7b' ∉ w) : replaceEach (namesFor s target) w = w :=
  replaceEach_eq_self fun _ hr => (isMark_of_mem_namesFor hr).not_within hw

/-- The mark of the source language alone becomes its name. -/
lemma replaceEach_languageMark : replaceEach (namesFor s target) languageMark.toList = s :=
  replaceEach_self (r := ⟨languageMark.toList, s⟩) isMark_languageMark.ne_nil

/-- The mark of the target language alone becomes its name. -/
lemma replaceEach_targetMark : replaceEach (namesFor s (some t)) targetMark.toList = t := by
  have hrest : replaceEach (namesFor s (some t)) targetMark.toList =
      replaceEach [⟨targetMark.toList, t⟩] targetMark.toList :=
    replaceEach_cons_eq not_languageMark_infix_targetMark
  rw [hrest]
  exact replaceEach_self (r := ⟨targetMark.toList, t⟩) isMark_targetMark.ne_nil

/-- What becomes of a row when one name is put in after the other. -/
lemma replaceAll_replaceAll_of_isApart (h : isApart w = true) :
    replaceAll targetMark.toList t (replaceAll languageMark.toList s w) =
      replaceEach (namesFor (replaceAll targetMark.toList t s) (some t)) w := by
  rcases isApart_iff.mp h with hw | rfl | rfl
  · rw [replaceAll_eq_self (isMark_languageMark.not_within hw),
      replaceAll_eq_self (isMark_targetMark.not_within hw), replaceEach_of_not_mem hw]
  · rw [replaceAll_self isMark_languageMark.ne_nil, replaceEach_languageMark]
  · rw [replaceAll_eq_self not_languageMark_infix_targetMark,
      replaceAll_self isMark_targetMark.ne_nil, replaceEach_targetMark]

/-- The second of two names goes into the first one and into the template. -/
lemma replaceAll_replaceAll {text : List Char} (h : Apart text) :
    replaceAll targetMark.toList t (replaceAll languageMark.toList s text) =
      replaceEach (namesFor (replaceAll targetMark.toList t s) (some t)) text := by
  induction h with
  | word hw => exact replaceAll_replaceAll_of_isApart hw
  | @cons w rest c hw hc _ ih =>
      have hboth := marks_of_not_mem (s := s) hc (some t)
      have hcut : ∀ {r : Rule} {x y : List Char}, r ∈ namesFor s (some t) →
          replaceAll r.old r.new (x ++ c :: y) =
            replaceAll r.old r.new x ++ c :: replaceAll r.old r.new y := by
        intro r x y hr
        simp only [replaceAll_eq_replaceEach]
        refine replaceEach_append_cons fun r' hr' => ?_
        rw [List.mem_singleton.mp hr']
        exact hboth r hr
      have hlanguage := @hcut ⟨languageMark.toList, s⟩
      have htarget := @hcut ⟨targetMark.toList, t⟩
      rw [hlanguage (by simp [namesFor]), htarget (by simp [namesFor]),
        replaceEach_append_cons (marks_of_not_mem hc _), ih, replaceAll_replaceAll_of_isApart hw]

/-- A row with room for a mark is that mark. -/
lemma IsMark.eq_of_isApart (hmark : IsMark mark) (h : isApart w = true) (hin : mark <:+: w) :
    w = mark := by
  rcases isApart_iff.mp h with hw | rfl | rfl
  · exact absurd hin (hmark.not_within hw)
  · rcases hmark with rfl | rfl
    · rfl
    · exact absurd hin not_targetMark_infix_languageMark
  · rcases hmark with rfl | rfl
    · exact absurd hin not_languageMark_infix_targetMark
    · rfl

/-- A mark alone becomes its name. -/
lemma replaceEach_old (hr : r ∈ namesFor s target) :
    replaceEach (namesFor s target) r.old = r.new := by
  rcases mem_namesFor_iff.mp hr with rfl | ⟨t, rfl, rfl⟩
  · exact replaceEach_languageMark
  · exact replaceEach_targetMark

/-- Where a text has a mark, its name is written. -/
lemma infix_replaceEach {text : List Char} (hr : r ∈ namesFor s target) (h : Apart text)
    (hmark : r.old <:+: text) : r.new <:+: replaceEach (namesFor s target) text := by
  have hrow : ∀ w, isApart w = true → r.old <:+: w →
      r.new <:+: replaceEach (namesFor s target) w := by
    intro w hw hmark
    rw [(isMark_of_mem_namesFor hr).eq_of_isApart hw hmark, replaceEach_old hr]
  induction h with
  | word hw => exact hrow _ hw hmark
  | @cons w rest c hw hc _ ih =>
      have hboth := marks_of_not_mem (s := s) hc target
      rw [replaceEach_append_cons hboth]
      rcases (infix_append_cons_iff (hboth r hr).2).mp hmark with hmark | hmark
      · exact (hrow w hw hmark).trans (List.prefix_append _ _).isInfix
      · exact (ih hmark).trans ((List.suffix_cons _ _).trans (List.suffix_append _ _)).isInfix

end Fill

/-! ### Prompts -/

section Render

variable {o : Operation} {source target : Option String} {prompt s : String}

/-- A parameter that is absent or blank gives no name. -/
lemma given?_eq (value : Option String) :
    given? value = if value.all allBlank then none else value.map trim := by
  cases value with
  | none => rfl
  | some v =>
      cases hv : allBlank v with
      | true => simp [given?, hv, trim_eq_empty_iff.mpr hv]
      | false =>
          have hne : trim v ≠ "" := fun h => by simp [trim_eq_empty_iff.mp h] at hv
          simp [given?, hv, hne]

/-- The name that is given is the parameter without blanks around it. -/
lemma eq_nameOf_of_given? {value : Option String} (h : given? value = some s) :
    s = nameOf value := by
  obtain ⟨v, hv, rfl⟩ := Option.map_eq_some_iff.mp (Option.filter_eq_some_iff.mp h).1
  rw [hv, nameOf, Option.getD_some]

/-- A prompt that passes the check for marks has none, and is left as it is. -/
lemma eq_of_unmarked {p : String}
    (h : (do
        if hasMark p then throw .unresolved
        pure p : Except RenderFault String) = .ok prompt) :
    hasMark prompt = false ∧ prompt = p := by
  cases hp : hasMark p with
  | true => rw [hp] at h; cases h
  | false => rw [hp] at h; cases h; exact ⟨hp, rfl⟩

/-- The template of an operation with the names put in one after the other. -/
def draft (o : Operation) (source target : String) : String :=
  if o.needsTarget then
    replace (replace (Template.ofOperation o).text languageMark source) targetMark target
  else replace (Template.ofOperation o).text languageMark source

/-- That is what is written when both names go in at once, after the second went into the first. -/
lemma draft_eq_fill (o : Operation) (source target : String) : draft o source target =
    fill o (if o.needsTarget then replace source targetMark target else source) target := by
  cases hn : o.needsTarget with
  | false =>
      simp only [draft, hn, Bool.false_eq_true, if_false, fill, namesFor, Option.map_none,
        Option.toList_none]
      rw [replace, replaceAll_eq_replaceEach]
  | true =>
      simp only [draft, if_true, fill, hn, replace, String.toList_ofList]
      rw [replaceAll_replaceAll (apart_text o)]

/-- The steps behind a prompt. -/
lemma render_eq_ok (h : render o source target = .ok prompt) :
    hasMark prompt = false ∧ prompt = draft o (nameOf source) (nameOf target) := by
  unfold render at h
  cases hs : given? source with
  | none => rw [hs] at h; cases h
  | some s =>
      obtain rfl := eq_nameOf_of_given? hs
      cases hn : o.needsTarget with
      | false =>
          simp only [hs, hn, Bool.false_eq_true, if_false, pure_bind] at h
          rw [draft, hn, if_neg Bool.false_ne_true]
          exact eq_of_unmarked h
      | true =>
          simp only [hs, hn, if_true] at h
          cases ht : given? target with
          | none => simp only [ht] at h; cases h
          | some t =>
              obtain rfl := eq_nameOf_of_given? ht
              simp only [ht, pure_bind] at h
              rw [draft, hn, if_pos rfl]
              exact eq_of_unmarked h

/-- The prompt is what is written when both names go in at once, after the second went into the
first. -/
lemma eq_fill_of_render (h : render o source target = .ok prompt) :
    prompt = fill o
      (if o.needsTarget then replace (nameOf source) targetMark (nameOf target)
        else nameOf source) (nameOf target) :=
  (render_eq_ok h).2.trans (draft_eq_fill o _ _)

/-- Names are put into the template for conversions when no placeholder text is left. -/
lemma render_convertLanguage (s t : String) {text : List Char}
    (htext : (Template.ofOperation .convertLanguage).text = String.ofList text)
    (hs : given? source = some s) (ht : given? target = some t)
    (hmark : [languageMark, targetMark].any (fun mark => containsChars mark.toList
      (replaceAll targetMark.toList t.toList (replaceAll languageMark.toList s.toList text))) =
        false) :
    ∃ prompt, render .convertLanguage source target = .ok prompt := by
  have hunmarked : hasMark (replace (replace (Template.ofOperation .convertLanguage).text
      languageMark s) targetMark t) = false := by
    simpa only [htext, hasMark, contains, replace, String.toList_ofList, List.any_cons,
      List.any_nil, Bool.or_false] using hmark
  refine ⟨replace (replace (Template.ofOperation .convertLanguage).text languageMark s)
    targetMark t, ?_⟩
  simp only [render, hs, ht, Operation.needsTarget, if_true, pure_bind, hunmarked]
  rfl

/-- The name of the source language is in every filled template. -/
lemma infix_fill (o : Operation) (source target : String) :
    source.toList <:+: (fill o source target).toList := by
  rw [fill, String.toList_ofList]
  exact infix_replaceEach (r := ⟨languageMark.toList, source.toList⟩) List.mem_cons_self
    (apart_text o) (languageMark_infix_text o)

/-- **A prompt is the template with the two names put in at once, and no name is rewritten, unless
there is a target language and the name of the source language holds its mark.**  Then the target
language was put into the source language before both were put into the template. -/
theorem render_eq_fill_iff (h : render o source target = .ok prompt) :
    (prompt = fill o (nameOf source) (nameOf target) ↔
      ¬(o.needsTarget = true ∧ contains (nameOf source) targetMark = true)) ∧
    prompt = fill o
      (if o.needsTarget then replace (nameOf source) targetMark (nameOf target)
        else nameOf source) (nameOf target) := by
  have hfill := eq_fill_of_render h
  refine ⟨⟨fun hone hmark => ?_, fun hnot => ?_⟩, hfill⟩
  · -- the mark would be left in the prompt
    have hin : targetMark.toList <:+: prompt.toList := by
      rw [hone]
      exact (containsChars_iff.mp hmark.2).trans (infix_fill o _ _)
    have hunmarked := (render_eq_ok h).1
    rw [hasMark, Bool.or_eq_false_iff] at hunmarked
    exact absurd (containsChars_iff.mpr hin) (Bool.eq_false_iff.mp hunmarked.2)
  · rw [hfill]
    split_ifs with hn
    · have hout : ¬targetMark.toList <:+: (nameOf source).toList :=
        fun hi => hnot ⟨hn, containsChars_iff.mpr hi⟩
      rw [replace, replaceAll_eq_self hout, String.ofList_toList]
    · rfl

/-- Two names that hold the halves of a mark. -/
theorem render_eq_fill_of_halves :
    ∃ prompt, render .convertLanguage (some " \x7btarget_ ") (some "language\x7d") = .ok prompt ∧
      prompt = fill .convertLanguage "\x7btarget_" "language\x7d" := by
  obtain ⟨prompt, h⟩ : ∃ prompt,
      render .convertLanguage (some " \x7btarget_ ") (some "language\x7d") = .ok prompt :=
    render_convertLanguage "\x7btarget_" "language\x7d"
      (by repeat' (first | apply append_of_eq | rfl)) (by decide) (by decide)
      (by decide)
  have hsource : nameOf (some " \x7btarget_ ") = "\x7btarget_" := by decide
  have htarget : nameOf (some "language\x7d") = "language\x7d" := by decide
  have hnot : contains "\x7btarget_" targetMark = false := by decide
  have hfill := (render_eq_fill_iff h).1
  rw [hsource, htarget, hnot] at hfill
  exact ⟨prompt, h, hfill.mpr (by simp)⟩

/-- **A conversion from the mark of the target language** is asked for as one from the target
language; the mark is not in the prompt. -/
theorem render_ne_fill :
    ∃ prompt, render .convertLanguage (some "\x7btarget_language\x7d") (some "rust") = .ok prompt ∧
      prompt ≠ fill .convertLanguage (nameOf (some "\x7btarget_language\x7d"))
        (nameOf (some "rust")) ∧
      prompt = fill .convertLanguage "rust" "rust" := by
  obtain ⟨prompt, h⟩ : ∃ prompt,
      render .convertLanguage (some "\x7btarget_language\x7d") (some "rust") = .ok prompt :=
    render_convertLanguage "\x7btarget_language\x7d" "rust"
      (by repeat' (first | apply append_of_eq | rfl)) (by decide) (by decide)
      (by decide)
  have hsource : nameOf (some "\x7btarget_language\x7d") = targetMark := by decide
  have htarget : nameOf (some "rust") = "rust" := by decide
  refine ⟨prompt, h, fun hone => ?_, ?_⟩
  · have hunmarked := (render_eq_ok h).1
    rw [hasMark, Bool.or_eq_false_iff] at hunmarked
    rw [hsource] at hone
    have hin := infix_fill .convertLanguage targetMark (nameOf (some "rust"))
    rw [← hone, ← containsChars_iff] at hin
    exact absurd hin (Bool.eq_false_iff.mp hunmarked.2)
  · have hname : replace targetMark targetMark "rust" = "rust" := by decide
    rw [eq_fill_of_render h, hsource, htarget, hname]
    rfl

end Render

end CodeReview.Prompt

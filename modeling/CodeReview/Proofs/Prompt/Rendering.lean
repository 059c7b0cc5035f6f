import CodeReview.Failure
import CodeReview.Proofs.Prompt.Substitution

/-!
# When a prompt is made

An operation that is not told its languages makes no prompt, and says which one is missing.  Told
them, it makes one unless placeholder text is left, and here it is shown when none can be: names
without a mark in them never make one, however many braces and pieces of marks they hold.  A mark
that comes into being would have to reach across the end of a name, and there the template goes on
with a character that is in no mark (`apart_text`); so it would have to stand in a name as a whole.

Main statement: `render_fails_or_fills`.
-/

namespace CodeReview.Prompt

open CodeReview.Text

/-! ### Marks in a filled template -/

/-- Conversions, and they alone, have a target language. -/
lemma needsTarget_iff (o : Operation) : o.needsTarget = true ↔ o = .convertLanguage := by
  cases o <;> simp [Operation.needsTarget]

section Marks

variable {s w text mark : List Char} {target : Option (List Char)}

/-- What becomes of a row holds no mark if no name does. -/
lemma not_infix_replaceEach_of_isApart (hmark : IsMark mark)
    (hnames : ∀ r ∈ namesFor s target, ¬mark <:+: r.new)
    (hrules : targetMark.toList <:+: w → target.isSome) (h : isApart w = true) :
    ¬mark <:+: replaceEach (namesFor s target) w := by
  rcases isApart_iff.mp h with hnot | rfl | rfl
  · rw [replaceEach_of_not_mem hnot]
    exact hmark.not_within hnot
  · have hmem : ⟨languageMark.toList, s⟩ ∈ namesFor s target := mem_namesFor_iff.mpr (.inl rfl)
    rw [replaceEach_languageMark]
    exact hnames _ hmem
  · obtain ⟨t, rfl⟩ := Option.isSome_iff_exists.mp (hrules List.infix_rfl)
    have hmem : ⟨targetMark.toList, t⟩ ∈ namesFor s (some t) :=
      mem_namesFor_iff.mpr (.inr ⟨t, rfl, rfl⟩)
    rw [replaceEach_targetMark]
    exact hnames _ hmem

/-- **No mark comes into being** where names without marks are put into a text whose marks stand
apart. -/
lemma not_infix_replaceEach (hmark : IsMark mark)
    (hnames : ∀ r ∈ namesFor s target, ¬mark <:+: r.new)
    (hrules : targetMark.toList <:+: text → target.isSome) (h : Apart text) :
    ¬mark <:+: replaceEach (namesFor s target) text := by
  induction h with
  | word hw => exact not_infix_replaceEach_of_isApart hmark hnames hrules hw
  | @cons w rest c hw hc _ ih =>
      have hcut : c ∉ mark := fun hmem => hc (hmark.subset hmem)
      rw [replaceEach_append_cons (marks_of_not_mem hc target), infix_append_cons_iff hcut]
      apply not_or_intro
      · apply not_infix_replaceEach_of_isApart hmark hnames _ hw
        intro htarget
        exact hrules (htarget.trans (List.prefix_append _ _).isInfix)
      · apply ih
        intro htarget
        exact hrules (htarget.trans ((List.suffix_cons _ _).trans (List.suffix_append _ _)).isInfix)

end Marks

/-! ### Filled templates -/

/-- The names that the template of an operation has room for. -/
def usedNames (o : Operation) (source target : String) : List String :=
  source :: if o.needsTarget then [target] else []

section Filled

variable {o : Operation} {source target name : String}

/-- A prompt that is found to have no mark has none. -/
lemma hasMark_eq_false_iff {prompt : String} :
    hasMark prompt = false ↔ ∀ mark, IsMark mark → ¬mark <:+: prompt.toList := by
  rw [hasMark, contains, contains, Bool.or_eq_false_iff, ← Bool.not_eq_true, ← Bool.not_eq_true,
    containsChars_iff, containsChars_iff]
  constructor
  · rintro ⟨hlanguage, htarget⟩ mark (rfl | rfl)
    · exact hlanguage
    · exact htarget
  · intro h
    exact ⟨h _ isMark_languageMark, h _ isMark_targetMark⟩

/-- The names that are used are that of the source language, and in conversions that of the target
language. -/
lemma mem_usedNames_iff :
    name ∈ usedNames o source target ↔ name = source ∨ o.needsTarget = true ∧ name = target := by
  cases hneeds : o.needsTarget with
  | false => simp [usedNames, hneeds]
  | true => simp [usedNames, hneeds]

/-- **A template that is filled with names without marks holds none.** -/
lemma hasMark_fill (h : ∀ name ∈ usedNames o source target, hasMark name = false) :
    hasMark (fill o source target) = false := by
  rw [hasMark_eq_false_iff, fill, String.toList_ofList]
  intro mark hmark
  have hnames : ∀ name ∈ usedNames o source target, ¬mark <:+: name.toList :=
    fun name hname => hasMark_eq_false_iff.mp (h name hname) mark hmark
  apply not_infix_replaceEach hmark _ _ (apart_text o)
  · intro r hr
    rcases mem_namesFor_iff.mp hr with rfl | ⟨t, ht, rfl⟩
    · exact hnames source (mem_usedNames_iff.mpr (.inl rfl))
    · obtain ⟨hneeds, ht⟩ := Option.ite_none_right_eq_some.mp ht
      obtain rfl := Option.some.inj ht
      exact hnames target (mem_usedNames_iff.mpr (.inr ⟨hneeds, rfl⟩))
  · intro htarget
    rw [if_pos ((targetMark_infix_text_iff o).mp htarget), Option.isSome_some]

/-- A filled template holds the names it has room for. -/
lemma contains_fill (h : name ∈ usedNames o source target) :
    contains (fill o source target) name = true := by
  rw [contains, containsChars_iff]
  rcases mem_usedNames_iff.mp h with rfl | ⟨hneeds, rfl⟩
  · exact infix_fill o name target
  · have hmark := (targetMark_infix_text_iff o).mpr hneeds
    have hrule : ⟨targetMark.toList, name.toList⟩ ∈ namesFor source.toList (some name.toList) :=
      mem_namesFor_iff.mpr (.inr ⟨_, rfl, rfl⟩)
    rw [fill, String.toList_ofList, hneeds, if_pos rfl]
    exact infix_replaceEach hrule (apart_text o) hmark

/-- A name without marks is not rewritten by the name that is put in after it. -/
lemma draft_eq_fill_of_unmarked (h : hasMark source = false) :
    draft o source target = fill o source target := by
  have hout := hasMark_eq_false_iff.mp h _ isMark_targetMark
  rw [draft_eq_fill, replace, replaceAll_eq_self hout, String.ofList_toList, ite_self]

end Filled

/-! ### The outcome of rendering -/

section Outcome

variable {o : Operation} {source target value : Option String}

/-- A parameter that is given and not blank gives its name. -/
lemma given?_of_not_blank (h : value.all allBlank = false) :
    given? value = some (nameOf value) := by
  rw [given?_eq, h]
  cases value with
  | none => cases h
  | some v => rfl

/-- A parameter that is left out or blank gives no name. -/
lemma given?_of_blank (h : value.all allBlank = true) : given? value = none := by
  rw [given?_eq, if_pos h]

/-- Without a source language nothing is rendered. -/
lemma render_of_source_blank (h : source.all allBlank = true) :
    render o source target = .error (.missing .sourceLanguage) := by
  simp only [render, given?_of_blank h]
  rfl

/-- Without a target language no conversion is rendered. -/
lemma render_of_target_blank (hsource : source.all allBlank = false) (ho : o = .convertLanguage)
    (htarget : target.all allBlank = true) :
    render o source target = .error (.missing .targetLanguage) := by
  have hneeds : o.needsTarget = true := (needsTarget_iff o).mpr ho
  simp only [render, given?_of_not_blank hsource, hneeds, if_true, given?_of_blank htarget]
  rfl

/-- With all the names it needs, an operation makes its prompt or says that placeholder text is
left. -/
lemma render_of_named (hsource : source.all allBlank = false)
    (htarget : o = .convertLanguage → target.all allBlank = false) :
    render o source target =
      if hasMark (draft o (nameOf source) (nameOf target)) then .error .unresolved
      else .ok (draft o (nameOf source) (nameOf target)) := by
  cases hneeds : o.needsTarget with
  | false =>
      rw [draft, hneeds, if_neg Bool.false_ne_true]
      simp only [render, given?_of_not_blank hsource, hneeds, Bool.false_eq_true, if_false,
        pure_bind]
      split_ifs <;> rfl
  | true =>
      have hgiven := given?_of_not_blank (htarget ((needsTarget_iff o).mp hneeds))
      rw [draft, hneeds, if_pos rfl]
      simp only [render, given?_of_not_blank hsource, hneeds, if_true, hgiven, pure_bind]
      split_ifs <;> rfl

/-- The source language is reported exactly where it is missing. -/
lemma render_missing_source_iff :
    render o source target = .error (.missing .sourceLanguage) ↔ source.all allBlank = true := by
  constructor
  · intro h
    by_contra hgiven
    have hsource : source.all allBlank = false := by simpa using hgiven
    by_cases hlacks : o = .convertLanguage ∧ target.all allBlank = true
    · rw [render_of_target_blank hsource hlacks.1 hlacks.2] at h
      cases h
    · rw [render_of_named hsource fun ho => by simpa [ho] using hlacks] at h
      split_ifs at h
      cases h
  · exact render_of_source_blank

/-- The target language is reported exactly where it alone is missing and needed. -/
lemma render_missing_target_iff :
    render o source target = .error (.missing .targetLanguage) ↔
      source.all allBlank = false ∧ o = .convertLanguage ∧ target.all allBlank = true := by
  constructor
  · intro h
    cases hsource : source.all allBlank with
    | true =>
        rw [render_of_source_blank hsource] at h
        cases h
    | false =>
        by_contra hlacks
        rw [render_of_named hsource fun ho => by simpa [ho] using hlacks] at h
        split_ifs at h
        cases h
  · rintro ⟨hsource, ho, htarget⟩
    exact render_of_target_blank hsource ho htarget

/-- What a review reports for a fault is a missing parameter only if the fault is. -/
lemma mapError_eq_missingParameter_iff {result : Except RenderFault String} {p : Parameter} :
    result.mapError (Failure.ofRenderFault o) = .error (.missingParameter o p) ↔
      result = .error (.missing p) := by
  constructor
  · intro h
    cases result with
    | ok prompt => cases h
    | error f =>
        cases f with
        | missing q =>
            have hsame : Failure.missingParameter o q = .missingParameter o p := Except.error.inj h
            rw [(Failure.missingParameter.inj hsame).2]
        | unresolved => cases h
  · rintro rfl
    rfl

/-- Names without marks fill the template. -/
lemma render_of_unmarked (hsource : source.all allBlank = false)
    (htarget : o = .convertLanguage → target.all allBlank = false)
    (h : ∀ name ∈ usedNames o (nameOf source) (nameOf target), hasMark name = false) :
    render o source target = .ok (fill o (nameOf source) (nameOf target)) := by
  have hname := h _ (mem_usedNames_iff.mpr (.inl rfl))
  have hrender := render_of_named hsource htarget
  rw [draft_eq_fill_of_unmarked hname, hasMark_fill h] at hrender
  exact hrender

/-- **When a prompt is made.**  A review lacks its source language exactly where none is given or it
is blank, and otherwise its target language exactly where a conversion is given none or a blank one.
Where nothing is lacking and the trimmed names hold no placeholder, the prompt is the template with
the names in place of the placeholders; it holds the names and no placeholder. -/
theorem render_fails_or_fills (o : Operation) (source target : Option String) :
    ((render o source target).mapError (Failure.ofRenderFault o) =
        .error (.missingParameter o .sourceLanguage) ↔ source.all allBlank = true) ∧
    ((render o source target).mapError (Failure.ofRenderFault o) =
        .error (.missingParameter o .targetLanguage) ↔
      source.all allBlank = false ∧ o = .convertLanguage ∧ target.all allBlank = true) ∧
    (source.all allBlank = false → (o = .convertLanguage → target.all allBlank = false) →
      (∀ name ∈ usedNames o (nameOf source) (nameOf target), hasMark name = false) →
      ∃ prompt, render o source target = .ok prompt ∧
        prompt = fill o (nameOf source) (nameOf target) ∧
        (∀ name ∈ usedNames o (nameOf source) (nameOf target), contains prompt name = true) ∧
        hasMark prompt = false) := by
  refine ⟨?_, ?_, ?_⟩
  · rw [mapError_eq_missingParameter_iff]
    exact render_missing_source_iff
  · rw [mapError_eq_missingParameter_iff]
    exact render_missing_target_iff
  · intro hsource htarget hnames
    refine ⟨_, render_of_unmarked hsource htarget hnames, rfl, ?_, hasMark_fill hnames⟩
    intro name hname
    exact contains_fill hname

/-- Names that hold braces and halves of placeholders, next to which the template goes on. -/
theorem render_fills_of_fragments :
    ∃ prompt, render .convertLanguage (some " \x7btarget_\x7blanguage ")
        (some "_language\x7d\x7d\n") = .ok prompt ∧
      prompt = fill .convertLanguage "\x7btarget_\x7blanguage" "_language\x7d\x7d" ∧
      contains prompt "\x7btarget_\x7blanguage" = true ∧
      contains prompt "_language\x7d\x7d" = true ∧ hasMark prompt = false := by
  have hsource : nameOf (some " \x7btarget_\x7blanguage ") = "\x7btarget_\x7blanguage" := by decide
  have htarget : nameOf (some "_language\x7d\x7d\n") = "_language\x7d\x7d" := by decide
  have hfills := (render_fails_or_fills .convertLanguage (some " \x7btarget_\x7blanguage ")
    (some "_language\x7d\x7d\n")).2.2 (by decide) (fun _ => by decide)
  rw [hsource, htarget] at hfills
  obtain ⟨prompt, hrender, hfill, hnames, hmark⟩ := hfills (by decide)
  exact ⟨prompt, hrender, hfill, hnames _ (by decide), hnames _ (by decide), hmark⟩

end Outcome

end CodeReview.Prompt

import CodeReview.Proofs.Disk.Parents
import CodeReview.Proofs.Text.Trim
import CodeReview.Proofs.Url.Alike
import CodeReview.Source.Language

/-!
# Listed extensions

A path has a language where its extension is listed, in any case.  Listed extensions are words of
letters, and so nothing else may stand at the end of a path that has a language
(`languageOfPath?_of_ending`).  Blanks in front of a path make no difference, with one exception
(`languageOfPath?_gap_iff`): a name that is nothing but a dot and an extension has none, and has one
as soon as a blank stands before the dot.
-/

namespace CodeReview

open CodeReview.Text

/-! ### Extensions of names -/

namespace Path

variable {s x y : List Char}

/-- A name without a dot has no extension. -/
lemma splitName_of_no_dot (h : '.' ∉ s) : splitName (String.ofList s) = (s, none) := by
  simp [splitName, lastPart_of_not_mem h]

/-- What stands behind the last dot is the extension, unless that dot stands first. -/
lemma splitName_of_dot (h : '.' ∉ y) (x : List Char) :
    splitName (String.ofList (x ++ '.' :: y)) =
      if x = [] then ('.' :: y, none) else (x, some y) := by
  have hlast : lastPart (· == '.') (x ++ '.' :: y) = y := by
    rw [lastPart_append_separator rfl, lastPart_of_not_mem h]
  have hlength : (x ++ '.' :: y).length - y.length - 1 = x.length := by
    simp only [List.length_append, List.length_cons]
    omega
  simp only [splitName, String.toList_ofList, hlast, hlength, List.take_left]
  cases x with
  | nil => simp
  | cons c rest => simp

/-- A text has no dot, or a last one. -/
lemma dotless_or_exists_last (s : List Char) :
    '.' ∉ s ∨ ∃ x y, s = x ++ '.' :: y ∧ '.' ∉ y := by
  refine or_iff_not_imp_left.mpr fun hdot => ?_
  obtain ⟨behind, before, hsplit, hbehind⟩ :=
    List.eq_append_cons_of_mem (List.mem_reverse.mpr (not_not.mp hdot))
  refine ⟨before.reverse, behind.reverse, ?_, fun h => hbehind (List.mem_reverse.mp h)⟩
  rw [← List.reverse_reverse s, hsplit]
  simp

/-- A text ends in characters that neither end a name nor cut it. -/
structure IsEnding (y : List Char) : Prop where
  ne_nil : y ≠ []
  noSlash : ∀ c ∈ y, (c == '/') = false
  noDot : ∀ c ∈ y, (c == '.') = false

/-- The extension of a path ends as the path does. -/
lemma suffix_of_extension? (hy : IsEnding y) {e : String}
    (h : extension? (String.ofList (x ++ y)) = some e) : y <:+ e.toList := by
  have hpart : lastPart (· == '/') (x ++ y) = lastPart (· == '/') x ++ y :=
    lastPart_append_of_none hy.noSlash x
  -- the last part is a name, since it ends in something that is no dot
  have hnames : namesDirectory (String.ofList (x ++ y)) = false := by
    obtain ⟨c, hc⟩ := List.exists_mem_of_ne_nil y hy.ne_nil
    have hdots : ∀ l : List Char, (∀ d ∈ l, d = '.') → lastPart (· == '/') x ++ y ≠ l := by
      rintro _ hl rfl
      have hnot := hy.noDot c hc
      rw [hl c (List.mem_append_right _ hc)] at hnot
      exact absurd hnot (by decide)
    simp [namesDirectory, hpart, hdots _ (l := ['.']), hdots _ (l := ['.', '.']), hy.ne_nil]
  obtain ⟨name, hname, hne⟩ := getLast?_parts hnames
  rw [extension?, fileName?_of_getLast? hname hne] at h
  rw [getLast?_parts_eq hnames, String.toList_ofList, hpart, Option.some.injEq] at hname
  subst hname
  obtain ⟨e, he, rfl⟩ := Option.map_eq_some_iff.mp h
  rw [String.toList_ofList]
  unfold splitName at he
  simp only at he
  split_ifs at he
  obtain rfl := Option.some.inj he
  rw [String.toList_ofList, lastPart_append_of_none hy.noDot]
  exact List.suffix_append _ _

end Path

/-! ### Listed extensions -/

namespace Source

variable {front s : List Char} {path e language : String}

/-- A character that is a letter in lower case is a letter. -/
lemma isAlpha_of_toLower {c : Char} (h : c.toLower.isAlpha = true) : c.isAlpha = true := by
  by_cases hupper : c.isUpper = true
  · exact (Bool.or_eq_true _ _).mpr (.inl hupper)
  · have hsame : c.toLower = c := dif_neg fun hrange => hupper (decide_eq_true hrange)
    rwa [hsame] at h

/-- Listed extensions are words of letters. -/
lemma isAlpha_of_listed (h : languages.lookup (lowerAscii e) = some language) :
    ∀ c ∈ e.toList, c.isAlpha = true := by
  have hall : languages.all (fun entry => entry.1.toList.all Char.isAlpha) = true := by
    decide
  simp only [List.all_eq_true] at hall
  obtain ⟨before, behind, hsplit, -⟩ := List.lookup_eq_some_iff.mp h
  intro c hc
  refine isAlpha_of_toLower (hall (lowerAscii e, language) ?_ _ ?_)
  · simp [hsplit]
  · rw [lowerAscii, String.toList_ofList]
    exact List.mem_map_of_mem hc

/-- **A path that ends in something else than letters has no language.** -/
lemma languageOfPath?_of_ending {y : List Char} (hy : Path.IsEnding y)
    (hletters : ∃ c ∈ y, c.isAlpha = false) (x : List Char) :
    languageOfPath? (String.ofList (x ++ y)) = none := by
  rw [languageOfPath?, Option.bind_eq_none_iff]
  intro e he
  rw [Option.eq_none_iff_forall_ne_some]
  intro language hlisted
  obtain ⟨c, hc, hnot⟩ := hletters
  have hletter := isAlpha_of_listed hlisted c ((Path.suffix_of_extension? hy he).subset hc)
  rw [hnot] at hletter
  cases hletter

/-- What is no blank: a slash, a dot, a letter. -/
lemma not_of_isBlank {c : Char} (h : isBlank c = true) :
    (c == '/') = false ∧ (c == '.') = false ∧ c.isAlpha = false := by
  refine ⟨?_, ?_, ?_⟩
  · exact beq_eq_false_iff_ne.mpr fun heq => absurd (heq ▸ h) (by decide)
  · exact beq_eq_false_iff_ne.mpr fun heq => absurd (heq ▸ h) (by decide)
  · rw [← Bool.not_eq_true]
    intro hletter
    obtain ⟨hlow, hhigh⟩ := Url.toNat_of_isAlphanum (c := c) (by simp [Char.isAlphanum, hletter])
    simp only [isBlank, Bool.or_eq_true, Bool.and_eq_true, decide_eq_true_eq, beq_iff_eq] at h
    change 48 ≤ c.toNat at hlow
    change c.toNat ≤ 122 at hhigh
    omega

/-- **A path that ends in a blank has no language.** -/
lemma languageOfPath?_of_blank {c : Char} (hc : isBlank c = true) (x : List Char) :
    languageOfPath? (String.ofList (x ++ [c])) = none := by
  obtain ⟨hslash, hdot, hletter⟩ := not_of_isBlank hc
  exact languageOfPath?_of_ending ⟨by simp, by simpa using hslash, by simpa using hdot⟩
    ⟨c, List.mem_singleton_self c, hletter⟩ x

/-! ### Blanks in front of a path -/

/-- The language of a file by its name. -/
def languageOfName? (name : String) : Option String :=
  (Path.splitName name).2.bind fun e => languages.lookup (lowerAscii (String.ofList e))

/-- A part of a path that does not count. -/
def isIdle (part : List Char) : Bool := part == [] || part == ['.']

/-- The last part that counts has the language, or else the first part. -/
lemma languageOfPath?_of_split {part : List Char} {parts : List (List Char)}
    (h : splitOn (· == '/') s = part :: parts) :
    languageOfPath? (String.ofList s) =
      languageOfName? (String.ofList ((parts.filter (!isIdle ·)).getLast?.getD part)) := by
  have hdots : languageOfName? ".." = none := by decide
  have hlast : languageOfPath? (String.ofList s) =
      (Path.parts (String.ofList s)).getLast?.bind languageOfName? := by
    rw [languageOfPath?, Path.extension?, Path.fileName?]
    cases (Path.parts (String.ofList s)).getLast? with
    | none => rfl
    | some name =>
        by_cases hname : name = ".."
        · rw [hname, Option.bind_some, hdots]
          rfl
        · have hkeep : (some name).filter (· ≠ "..") = some name := by
            rw [Option.filter_some]
            simp [hname]
          rw [hkeep, Option.bind_some, Option.bind_some, languageOfName?]
          cases (Path.splitName name).2 <;> rfl
  have hparts : Path.parts (String.ofList s) =
      ((part :: parts).filter (!isIdle ·)).map String.ofList := by
    rw [← h, Path.parts, String.toList_ofList]
    rfl
  rw [hlast, hparts, List.getLast?_map]
  cases hkept : (parts.filter (!isIdle ·)).getLast? with
  | some last =>
      have hcons : ((part :: parts).filter (!isIdle ·)).getLast? = some last := by
        rw [List.filter_cons]
        split_ifs
        · rw [List.getLast?_cons, hkept, Option.getD_some]
        · exact hkept
      rw [hcons]
      rfl
  | none =>
      rw [List.getLast?_eq_none_iff] at hkept
      rw [List.filter_cons, hkept]
      split_ifs with hidle
      · rfl
      · simp only [isIdle, Bool.not_eq_true', Bool.not_eq_false, Bool.or_eq_true,
          beq_iff_eq] at hidle
        rcases hidle with rfl | rfl
        · decide
        · decide

/-- A name that is nothing but a dot and an extension has one as soon as a blank stands before. -/
lemma languageOfName?_gap_iff (hfront : ∀ c ∈ front, isBlank c = true) (hne : front ≠ [])
    (part : List Char) :
    languageOfName? (String.ofList (front ++ part)) = languageOfName? (String.ofList part) ↔
      ¬∃ e, part = '.' :: e ∧ (languages.lookup (lowerAscii (String.ofList e))).isSome := by
  have hfrontDot : '.' ∉ front := fun hc =>
    absurd (not_of_isBlank (hfront '.' hc)).2.1 (by decide)
  rcases Path.dotless_or_exists_last part with hdot | ⟨x, y, rfl, hyDot⟩
  · have hboth : '.' ∉ front ++ part := List.not_mem_append hfrontDot hdot
    rw [languageOfName?, languageOfName?, Path.splitName_of_no_dot hboth,
      Path.splitName_of_no_dot hdot]
    simp only [true_iff]
    rintro ⟨e, rfl, -⟩
    exact hdot List.mem_cons_self
  · rw [← List.append_assoc, languageOfName?, languageOfName?, Path.splitName_of_dot hyDot,
      Path.splitName_of_dot hyDot]
    cases x with
    | nil =>
        rw [List.append_nil, if_neg hne, if_pos rfl, Option.bind_some, Option.bind_none,
          ← Option.not_isSome_iff_eq_none, not_iff_not, List.nil_append]
        constructor
        · exact fun hlisted => ⟨y, rfl, hlisted⟩
        · rintro ⟨e, heq, hlisted⟩
          obtain ⟨-, rfl⟩ := List.cons.inj heq
          exact hlisted
    | cons c rest =>
        simp only [List.append_eq_nil_iff, hne, reduceCtorEq, false_and, if_false, true_iff]
        rintro ⟨e, heq, hlisted⟩
        -- a listed extension holds no dot
        obtain ⟨language, hlisted⟩ := Option.isSome_iff_exists.mp hlisted
        obtain ⟨-, rfl⟩ := List.cons.inj heq
        have hletter := isAlpha_of_listed hlisted '.' (by simp)
        cases hletter

/-- The path is one name, and that is a dot and a listed extension. -/
def isBareExtension (path : String) : Bool :=
  match splitOn (· == '/') path.toList with
  | ('.' :: e) :: parts =>
    parts.all isIdle && (languages.lookup (lowerAscii (String.ofList e))).isSome
  | _ => false

/-- A path is a bare extension where its first part is a dot with a listed extension and nothing
that counts follows. -/
lemma isBareExtension_iff {part : List Char} {parts : List (List Char)}
    (h : splitOn (· == '/') path.toList = part :: parts) :
    isBareExtension path = true ↔ (∀ part ∈ parts, isIdle part = true) ∧
      ∃ e, part = '.' :: e ∧ (languages.lookup (lowerAscii (String.ofList e))).isSome := by
  unfold isBareExtension
  rw [h]
  split
  · next e parts' heq =>
    obtain ⟨rfl, rfl⟩ := List.cons.inj heq
    simp
  · next hnot =>
    simp only [Bool.false_eq_true, false_iff]
    rintro ⟨-, e, rfl, -⟩
    exact hnot e parts rfl

/-- A bare extension begins with a dot. -/
lemma head?_of_isBareExtension (h : isBareExtension path = true) :
    path.toList.head? = some '.' := by
  unfold isBareExtension at h
  split at h
  · next e parts hsplit =>
    cases hpath : path.toList with
    | nil =>
        rw [hpath] at hsplit
        cases hsplit
    | cons c rest =>
        rw [hpath, splitOn] at hsplit
        split_ifs at hsplit
        · cases hsplit
        · split at hsplit
          · obtain ⟨⟨rfl, -⟩, -⟩ := by simpa using hsplit
            rfl
          · obtain ⟨⟨rfl, -⟩, -⟩ := by simpa using hsplit
            rfl
  · cases h

/-- **Blanks in front of a path change its language only where the path is a bare extension.** -/
lemma languageOfPath?_gap_iff (hfront : ∀ c ∈ front, isBlank c = true) (hne : front ≠ [])
    (path : String) :
    languageOfPath? (String.ofList (front ++ path.toList)) = languageOfPath? path ↔
      isBareExtension path = false := by
  obtain ⟨part, parts, hsplit⟩ := List.exists_cons_of_ne_nil
    (splitOn_ne_nil (· == '/') path.toList)
  have hfrontSlash : ∀ c ∈ front, (c == '/') = false := fun c hc =>
    (not_of_isBlank (hfront c hc)).1
  have hpath := languageOfPath?_of_split hsplit
  rw [String.ofList_toList] at hpath
  rw [hpath, languageOfPath?_of_split (splitOn_append_of_none hfrontSlash hsplit),
    ← Bool.not_eq_true, isBareExtension_iff hsplit]
  cases hkept : (parts.filter (!isIdle ·)).getLast? with
  | some last =>
      simp only [Option.getD_some, true_iff]
      rintro ⟨hidle, -⟩
      have hmem := List.mem_of_getLast? hkept
      rw [List.mem_filter] at hmem
      simp [hidle last hmem.1] at hmem
  | none =>
      have hidle : ∀ part ∈ parts, isIdle part = true := by
        simpa [List.filter_eq_nil_iff] using hkept
      rw [Option.getD_none, Option.getD_none, languageOfName?_gap_iff hfront hne,
        and_iff_right hidle]

end Source

end CodeReview

import CodeReview.Proofs.Url.Padding
import CodeReview.Source.Reading

/-!
# The language of what is read

A source is read from what its locator stands for without the blanks around it.  Its language is
inferred from the locator as it is written: from the path of an address with a host, or else from
the whole of it as a path.  The two are not the same for every locator (`not_agrees_query`), and
`agrees_iff` says for which they come to the same language.

Two questions decide it.  One is whether the blanks leave the address as it is (`Shows`); then its
path is judged, with or without the blanks (`language?_of_shows`).  The other is what becomes of a
locator that is judged as a whole (`language?_of_hidden`): blanks behind it leave no language, blanks
in front give one to a bare extension, and the rest of an address is judged with it.
-/

namespace CodeReview.Source

open CodeReview.Text

variable {locator path : String} {u : Url}

/-! ### What is read, and what is judged -/

/-- What a locator is taken for, unless nothing is left of it without its blanks. -/
def taken? (locator : String) : Option Place :=
  if trim locator = "" then none else some (place (trim locator))

/-- The path of what is read. -/
def Place.path? : Place → Option String
  | .web u => some u.path.text
  | .file path => some path
  | .nowhere => none

/-- What is read is what the locator is taken for. -/
lemma resolve_eq (timeout : Duration) (locator : String) :
    resolve timeout locator = match taken? locator with
      | none => throw (.sourceRead (trim locator) "empty path")
      | some (.web u) => fetch timeout (trim locator) u
      | some (.file path) => readFile (trim locator) path
      | some .nowhere => throw (.sourceRead (trim locator) "invalid file URL") := by
  unfold resolve taken?
  by_cases hempty : trim locator = ""
  · simp only [hempty, beq_self_eq_true, if_true]
    rfl
  · simp only [hempty, beq_iff_eq, if_false]
    cases hplace : place (trim locator) with
    | web u => rfl
    | file path => rfl
    | nowhere => rfl

/-- The language is that of the path of what is read. -/
def Agrees (locator : String) : Prop :=
  ∀ place ∈ taken? locator, ∀ path ∈ place.path?, language? locator = languageOfPath? path

/-- The address that a text is, where it has a host. -/
def address? (text : String) : Option Url := (Url.parse? text).filter (·.host.isSome)

/-- The path of an address is what is judged. -/
lemma judgedPath_of_address (h : address? locator = some u) :
    judgedPath locator = u.path.text := by
  obtain ⟨hparse, hhost⟩ := Option.filter_eq_some_iff.mp h
  simp only [judgedPath, hparse, hhost, if_true]

/-- Without an address the whole locator is judged. -/
lemma judgedPath_of_none (h : address? locator = none) : judgedPath locator = locator := by
  rw [address?, Option.filter_eq_none_iff] at h
  unfold judgedPath
  split
  · next u hu => rw [if_neg (h u hu)]
  · rfl

/-! ### What blanks make of a locator -/

/-- The blanks around a locator leave host and path of its address as they are: those in front are
in ASCII, and so are those behind unless a query or a fragment has started before them. -/
structure Shows (locator : String) : Prop where
  before : ∀ c ∈ gapBefore locator, Url.isLow c = true
  behind : (∀ c ∈ gapBehind locator, Url.isLow c = true) ∨
    ∃ c ∈ (trim locator).toList, Url.endsPath c = true

instance (locator : String) : Decidable (Shows locator) :=
  decidable_of_iff ((gapBefore locator).all Url.isLow = true ∧
      ((gapBehind locator).all Url.isLow = true ∨ (trim locator).toList.any Url.endsPath = true))
    ⟨fun h => ⟨by simpa using h.1, by simpa using h.2⟩,
      fun h => ⟨by simpa using h.before, by simpa using h.behind⟩⟩

/-- The language of what a locator is without blanks, which blanks behind it take away. -/
def written? (locator : String) : Option String :=
  if gapBehind locator = [] then languageOfPath? (trim locator) else none

/-- Blanks in front of a bare extension make it the extension of a name. -/
def Misnamed (locator : String) : Prop :=
  gapBefore locator ≠ [] ∧ gapBehind locator = [] ∧ isBareExtension (trim locator) = true

instance (locator : String) : Decidable (Misnamed locator) :=
  inferInstanceAs (Decidable (_ ∧ _ ∧ _))

/-- A locator between blanks in ASCII is read as the same address. -/
lemma clean_of_low (hbefore : ∀ c ∈ gapBefore locator, Url.isLow c = true) :
    Url.clean locator.toList = Url.clean ((trim locator).toList ++ gapBehind locator) := by
  rw [← gaps_eq locator, List.append_assoc, Url.clean_append_before hbefore]

/-- Blanks behind a locator leave it without language as a path. -/
lemma languageOfPath?_of_gapBehind (h : gapBehind locator ≠ []) :
    languageOfPath? locator = none := by
  obtain ⟨c, hc⟩ := List.getLast?_isSome.mpr h |> Option.isSome_iff_exists.mp
  obtain ⟨front, hfront⟩ := List.getLast?_eq_some_iff.mp hc
  have hblank := isBlank_of_mem_gapBehind (List.mem_of_getLast? hc)
  rw [← String.ofList_toList (s := locator), ← gaps_eq locator, hfront, ← List.append_assoc]
  exact languageOfPath?_of_blank hblank _

/-- The language of a locator as a path. -/
lemma languageOfPath?_eq_written_iff :
    (languageOfPath? locator = languageOfPath? (trim locator) ↔
      written? locator = languageOfPath? (trim locator) ∧ ¬Misnamed locator) := by
  by_cases hbehind : gapBehind locator = []
  · by_cases hbefore : gapBefore locator = []
    · have hself : trim locator = locator := by
        rw [← String.toList_inj, ← gaps_eq locator, hbefore, hbehind]
        simp
      simp [written?, hbehind, Misnamed, hbefore, hself]
    · have hgap := languageOfPath?_gap_iff (fun c => isBlank_of_mem_gapBefore) hbefore
        (trim locator)
      have hself : String.ofList (gapBefore locator ++ (trim locator).toList) = locator := by
        rw [← String.toList_inj, ← gaps_eq locator, hbehind]
        simp
      rw [hself] at hgap
      simp [written?, hbehind, Misnamed, hbefore, hgap]
  · simp [languageOfPath?_of_gapBehind hbehind, written?, hbehind, Misnamed]

/-- An address does not start with a dot, as a bare extension does. -/
lemma not_misnamed_of_parse? (h : Url.parse? (trim locator) = some u) : ¬Misnamed locator := by
  rintro ⟨-, -, hbare⟩
  obtain ⟨rest, hrest⟩ := List.head?_eq_some_iff.mp (head?_of_isBareExtension hbare)
  have hnone : Url.parse? (String.ofList ([] ++ '.' :: rest)) = none :=
    Url.parse?_of_start (by simp) rfl rfl rest
  rw [List.nil_append, ← hrest, String.ofList_toList, h] at hnone
  cases hnone

/-- An address that is judged as a path has the language that is written there. -/
lemma languageOfPath?_of_parse? (h : Url.parse? (trim locator) = some u) :
    languageOfPath? locator = written? locator := by
  by_cases hbehind : gapBehind locator = []
  · have hwritten : written? locator = languageOfPath? (trim locator) := if_pos hbehind
    rw [hwritten]
    exact languageOfPath?_eq_written_iff.mpr ⟨hwritten, not_misnamed_of_parse? h⟩
  · rw [languageOfPath?_of_gapBehind hbehind, written?, if_neg hbehind]

/-- A query or a fragment that starts in an address starts in what is kept of it. -/
lemma exists_clean_eq (h : ∃ c ∈ (trim locator).toList, Url.endsPath c = true) :
    ∃ x c y, Url.endsPath c = true ∧ Url.clean (trim locator).toList = x ++ c :: y := by
  obtain ⟨c, hc, hends⟩ := h
  have hlow : Url.isLow c = false := by rcases Url.endsPath_iff.mp hends with rfl | rfl <;> rfl
  obtain ⟨x, y, hsplit⟩ := List.append_of_mem (Url.mem_clean hlow hc)
  exact ⟨x, c, y, hends, hsplit⟩

/-- Characters that start a query or a fragment are not blank. -/
lemma not_isBlank_of_endsPath {c : Char} (h : Url.endsPath c = true) : ¬isBlank c = true := by
  rcases Url.endsPath_iff.mp h with rfl | rfl <;> decide

/-- Blanks that leave host and path as they are leave them as they are. -/
lemma trunk_of_shows (h : Shows locator) :
    (Url.parse? locator).map Url.trunk = (Url.parse? (trim locator)).map Url.trunk := by
  have hclean := clean_of_low h.before
  by_cases hbehind : ∀ c ∈ gapBehind locator, Url.isLow c = true
  · rw [Url.clean_append_behind hbehind] at hclean
    rw [Url.parse?_congr hclean]
  · obtain ⟨x, c, y, hends, hcore⟩ := exists_clean_eq (h.behind.resolve_left hbehind)
    obtain ⟨more, d, -, -, hmore⟩ := Url.exists_clean_append_high
      (by simpa using hbehind) (trim locator).toList
    rw [hmore, hcore, List.append_assoc, List.append_assoc, List.cons_append] at hclean
    exact Url.parse?_trunk hends hclean hcore

/-- **Where the blanks leave the address as it is, its path is judged.** -/
lemma language?_of_shows (hshows : Shows locator) (hu : address? (trim locator) = some u) :
    language? locator = languageOfPath? u.path.text := by
  obtain ⟨hparse, hhost⟩ := Option.filter_eq_some_iff.mp hu
  have htrunk := trunk_of_shows hshows
  rw [hparse, Option.map_some] at htrunk
  obtain ⟨v, hv, hsame⟩ := Option.map_eq_some_iff.mp htrunk
  obtain ⟨hvhost, hvpath⟩ := Prod.mk.inj hsame
  have haddress : address? locator = some v :=
    Option.filter_eq_some_iff.mpr ⟨hv, by rw [hvhost]; exact hhost⟩
  rw [language?, judgedPath_of_address haddress, hvpath]

/-- **Otherwise the language is that of the locator as a path.** -/
lemma language?_of_hidden (h : ∀ u, address? (trim locator) = some u → ¬Shows locator) :
    language? locator = languageOfPath? locator := by
  cases haddress : address? locator with
  | none => rw [language?, judgedPath_of_none haddress]
  | some v =>
      obtain ⟨hparse, hhost⟩ := Option.filter_eq_some_iff.mp haddress
      have hbefore : ∀ c ∈ gapBefore locator, Url.isLow c = true := by
        by_contra! hhigh
        have hnone := Url.parse?_of_high_before (fun c => isBlank_of_mem_gapBefore)
          (by simpa using hhigh) ((trim locator).toList ++ gapBehind locator)
        rw [← List.append_assoc, gaps_eq, String.ofList_toList, hparse] at hnone
        cases hnone
      by_cases hshows : Shows locator
      · -- the address would be one without the blanks
        have htrunk := trunk_of_shows hshows
        rw [hparse, Option.map_some] at htrunk
        obtain ⟨u, hu, hsame⟩ := Option.map_eq_some_iff.mp htrunk.symm
        have hown : address? (trim locator) = some u :=
          Option.filter_eq_some_iff.mpr ⟨hu, by rw [(Prod.mk.inj hsame).1]; exact hhost⟩
        exact absurd hshows (h u hown)
      · have hbehind : ∃ c ∈ gapBehind locator, Url.isLow c = false := by
          by_contra! hlow
          exact hshows ⟨hbefore, .inl (by simpa using hlow)⟩
        obtain ⟨more, c, hc, hhigh, hmore⟩ := Url.exists_clean_append_high hbehind
          (trim locator).toList
        have hclean := clean_of_low hbefore
        rw [hmore] at hclean
        have hends : ∀ d ∈ Url.clean (trim locator).toList ++ more, Url.endsPath d = false := by
          intro d hd
          by_contra hsign
          rw [Bool.not_eq_false] at hsign
          have hmem : d ∈ locator.toList :=
            Url.mem_of_mem_clean (hclean ▸ List.mem_append_left [c] hd)
          rw [← gaps_eq locator, List.mem_append, List.mem_append] at hmem
          rcases hmem with (hmem | hmem) | hmem
          · exact not_isBlank_of_endsPath hsign (isBlank_of_mem_gapBefore hmem)
          · exact hshows ⟨hbefore, .inr ⟨d, hmem, hsign⟩⟩
          · exact not_isBlank_of_endsPath hsign (isBlank_of_mem_gapBehind hmem)
        have hnone := Url.languageOfPath?_of_high_behind hclean (isBlank_of_mem_gapBehind hc) hhigh
          hends hparse hhost
        rw [language?, judgedPath_of_address haddress, hnone,
          languageOfPath?_of_gapBehind (List.ne_nil_of_mem hc)]

/-! ### Where the two agree -/

/-- What is fetched from the web is the address. -/
lemma place_eq_web (h : place locator = .web u) : address? locator = some u := by
  unfold place at h
  split at h
  · next v hv =>
    split_ifs at h with hweb hfile
    · obtain rfl := Place.web.inj h
      exact Option.filter_eq_some_iff.mpr ⟨hv, (Bool.and_eq_true_iff.mp hweb).2⟩
    · cases hpath : filePath? v with
      | none =>
          rw [hpath] at h
          cases h
      | some path =>
          rw [hpath] at h
          cases h
  · cases h

/-- A file is read at the path that a file URL without a host names, or at the locator itself. -/
lemma place_eq_file (h : place locator = .file path) :
    path = locator ∨ (address? locator = none ∧ ∃ u, Url.parse? locator = some u) := by
  unfold place at h
  split at h
  · next v hv =>
    split_ifs at h with hweb hfile
    · refine .inr ⟨?_, v, hv⟩
      cases hpath : filePath? v with
      | none =>
          rw [hpath] at h
          cases h
      | some path =>
          have hhost : v.host.isSome = false := by
            unfold filePath? at hpath
            split at hpath
            · cases hpath
            · split_ifs at hpath with hhost
              exact Bool.eq_false_iff.mpr hhost
          rw [address?, Option.filter_eq_none_iff]
          rintro w hw
          obtain rfl := Option.some.inj (hv.symm.trans hw)
          simp [hhost]
    · exact .inl (Place.file.inj h).symm
  · exact .inl (Place.file.inj h).symm

/-- **What is read is what the locator is taken for, and the language of the locator is that of what
is read exactly for the locators of these kinds**:

* a web address whose blanks leave its path as it is, or whose path has the same language as the
  locator as it is written;
* a path, unless blanks follow it and the file has a language, or it is a bare extension behind
  blanks;
* a path that is an address of another scheme, if the path of that address has its language, or as a
  path where blanks hide the address;
* a file URL whose file has the same language as the locator as it is written. -/
theorem agrees_iff (locator : String) :
    (∀ timeout, resolve timeout locator = match taken? locator with
      | none => throw (.sourceRead (trim locator) "empty path")
      | some (.web u) => fetch timeout (trim locator) u
      | some (.file path) => readFile (trim locator) path
      | some .nowhere => throw (.sourceRead (trim locator) "invalid file URL")) ∧
    (Agrees locator ↔
      match taken? locator, address? (trim locator) with
      | some (.web u), _ => Shows locator ∨ written? locator = languageOfPath? u.path.text
      | some (.file path), some u =>
        (if Shows locator then languageOfPath? u.path.text else written? locator) =
          languageOfPath? path
      | some (.file path), none =>
        written? locator = languageOfPath? path ∧ ¬Misnamed locator
      | _, _ => True) := by
  refine ⟨fun timeout => resolve_eq timeout locator, ?_⟩
  cases htaken : taken? locator with
  | none => simp [Agrees, htaken]
  | some place =>
      have hplace : Source.place (trim locator) = place := by
        unfold taken? at htaken
        split_ifs at htaken
        exact Option.some.inj htaken
      have hagrees : Agrees locator ↔
          ∀ path ∈ place.path?, language? locator = languageOfPath? path := by
        simp [Agrees, htaken]
      rw [hagrees]
      cases place with
      | nowhere => simp [Place.path?]
      | web u =>
          have haddress := place_eq_web hplace
          simp only [Place.path?, Option.mem_some_iff, forall_eq']
          by_cases hshows : Shows locator
          · simp [hshows, language?_of_shows hshows haddress]
          · have hparse := (Option.filter_eq_some_iff.mp haddress).1
            rw [language?_of_hidden fun _ _ => hshows, languageOfPath?_of_parse? hparse,
              or_iff_right hshows]
      | file path =>
          simp only [Place.path?, Option.mem_some_iff, forall_eq']
          cases haddress : address? (trim locator) with
          | some u =>
              by_cases hshows : Shows locator
              · rw [language?_of_shows hshows haddress]
                simp only [hshows, if_true]
              · have hparse := (Option.filter_eq_some_iff.mp haddress).1
                rw [language?_of_hidden fun _ _ => hshows, languageOfPath?_of_parse? hparse]
                simp only [hshows, if_false]
          | none =>
              have hhidden : ∀ u, address? (trim locator) = some u → ¬Shows locator := by
                simp [haddress]
              rw [language?_of_hidden hhidden]
              obtain rfl | ⟨-, u, hparse⟩ := place_eq_file hplace
              · exact languageOfPath?_eq_written_iff
              · rw [languageOfPath?_of_parse? hparse]
                simp [not_misnamed_of_parse? hparse]

/-- An address between blanks, with a query and a fragment. -/
theorem agrees_padded_address :
    Agrees " https://example.com/raw/main.go?token=abc#L10\n" ∧
      language? " https://example.com/raw/main.go?token=abc#L10\n" = some "go" := by
  refine ⟨(agrees_iff _).2.mpr ?_, by decide +kernel⟩
  have htaken : taken? " https://example.com/raw/main.go?token=abc#L10\n" =
      some (.web ⟨"https", true, "", none, some (.name "example.com"), none,
        .segments ["raw", "main.go"], some "token=abc", some "L10"⟩) := by decide +kernel
  rw [htaken]
  exact .inl (by decide)

/-- **The query of a file URL hides the extension of the file that is read, and so does a blank behind
a path.** -/
theorem not_agrees_query :
    ¬Agrees "file:///src/fib.py?raw=1" ∧ ¬Agrees "fib.py " := by
  have hquery : taken? "file:///src/fib.py?raw=1" = some (.file "/src/fib.py") := by decide +kernel
  have hblank : taken? "fib.py " = some (.file "fib.py") := by decide
  constructor
  · intro h
    have hsame := h _ hquery _ rfl
    exact absurd hsame (by decide)
  · intro h
    have hsame := h _ hblank _ rfl
    exact absurd hsame (by decide)

end CodeReview.Source

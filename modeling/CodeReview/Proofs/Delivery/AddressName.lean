import CodeReview.Proofs.Delivery.Collection
import CodeReview.Proofs.Url.Padding

/-!
# Files that are named for an address

The stem of a generated file is cut out of the locator as it is written, query and fragment
included, and not out of the path of the address that the locator is.  So a query can become part of
the name, or take the place of it (`Delivery.targetPath_asked`).

`Delivery.targetPath_address` is about addresses that end in a name which the path of the address
has as it is written.  Without query and fragment they give the stem of that name.  With them they
give the same exactly if these are harmless (`Address.Harmless`): if they stand behind an extension
and have neither a dot nor a separator, so that they go where the extension goes.
-/

namespace CodeReview

open CodeReview.Text

/-- One more of a character stands in front of a row of them, or behind it. -/
lemma Text.append_cons_replicate {α : Type} (x y : List α) (c : α) (n : ℕ) :
    x ++ c :: (List.replicate n c ++ y) = (x ++ List.replicate n c) ++ c :: y := by
  rw [← List.cons_append, ← List.replicate_succ, List.replicate_succ']
  simp

/-! ### Names in paths -/

namespace Path

variable {name : String} {s : List Char} {c : Char}

/-- A name that is followed by nothing but slashes is the file name. -/
lemma fileName?_append_name (hname : IsName name) (x : List Char) (n : ℕ) :
    fileName? (String.ofList (x ++ '/' :: (name.toList ++ List.replicate n '/'))) = some name := by
  have hslashes : ((splitOn (· == '/') (name.toList ++ List.replicate n '/')).filter fun p =>
      !(p == [] || p == ['.'])) = [name.toList] := by
    induction n with
    | zero =>
        rw [List.replicate_zero, List.append_nil, splitOn_name hname]
        simp [hname.ne_nil, hname.ne_dot]
    | succ n ih =>
        rw [List.replicate_succ', ← List.append_assoc, splitOn_append_separator (by simp),
          List.filter_append, ih]
        rfl
  refine fileName?_of_getLast? ?_ hname.ne_dotdot
  rw [parts, String.toList_ofList, splitOn_append_separator (by simp), List.filter_append, hslashes,
    List.map_append, List.getLast?_append]
  simp

/-- A name that stands alone is the last name of the path that it is. -/
lemma fileName?_of_isName (hname : IsName name) : fileName? name = some name := by
  refine fileName?_of_getLast? ?_ hname.ne_dotdot
  rw [parts, splitOn_name hname]
  simp [hname.ne_nil, hname.ne_dot]

/-- A name that has characters has a stem that has some. -/
lemma splitName_fst_ne_nil (h : name.toList ≠ []) : (splitName name).1 ≠ [] := by
  rw [← String.ofList_toList (s := name)]
  rcases dotless_or_exists_last name.toList with hdot | ⟨x, y, hs, hy⟩
  · rwa [splitName_of_no_dot hdot]
  · rw [hs, splitName_of_dot hy]
    split_ifs with hx
    · exact List.cons_ne_nil _ _
    · exact hx

/-- What stands behind an extension goes with it, if there is no dot in it. -/
lemma splitName_fst_append {t : List Char} (h : (splitName (String.ofList s)).2.isSome = true)
    (ht : '.' ∉ t) : (splitName (String.ofList (s ++ t))).1 = (splitName (String.ofList s)).1 := by
  rcases dotless_or_exists_last s with hdot | ⟨x, y, rfl, hy⟩
  · rw [splitName_of_no_dot hdot] at h
    cases h
  · rw [splitName_of_dot hy] at h
    rw [List.append_assoc, List.cons_append, splitName_of_dot (List.not_mem_append hy ht),
      splitName_of_dot hy]
    split_ifs with hx
    · rw [if_pos hx] at h
      cases h
    · rfl

/-- Otherwise it stays, from its first character on. -/
lemma mem_splitName_append {t : List Char} (hc : c ≠ '.')
    (h : (splitName (String.ofList s)).2 = none ∨ '.' ∈ t) :
    c ∈ (splitName (String.ofList (s ++ c :: t))).1 := by
  rcases dotless_or_exists_last t with ht | ⟨x, y, rfl, hy⟩
  · have hnone := h.resolve_right ht
    have htail : '.' ∉ c :: t := List.not_mem_cons_of_ne_of_not_mem hc.symm ht
    rcases dotless_or_exists_last s with hs | ⟨x, y, rfl, hy⟩
    · rw [splitName_of_no_dot (List.not_mem_append hs htail)]
      simp
    · have hx : x = [] := by
        by_contra hx
        rw [splitName_of_dot hy, if_neg hx] at hnone
        cases hnone
      rw [List.append_assoc, List.cons_append, splitName_of_dot (List.not_mem_append hy htail),
        if_pos hx]
      simp
  · have hsplit : s ++ c :: (x ++ '.' :: y) = (s ++ c :: x) ++ '.' :: y := by simp
    rw [hsplit, splitName_of_dot hy, if_neg (by simp)]
    simp

end Path

/-! ### Addresses that end in a name -/

namespace Url

variable {name : List Char} {c : Char}

/-- A character that a path keeps as it is is not dropped from an address. -/
lemma isLow_of_inPathSet (h : inPathSet c = false) : isLow c = false := by
  simp only [inPathSet, inFragmentSet, isControl, Bool.or_eq_false_iff, decide_eq_false_iff_not,
    beq_eq_false_iff_ne] at h
  have hspace : c.toNat ≠ 0x20 := fun heq => h.1.1.1.1.1.1.1.1.2 (Char.toNat_inj.mp heq)
  simp only [isLow, decide_eq_false_iff_not]
  omega

/-- A character that a path keeps as it is does not start a query or a fragment. -/
lemma endsPath_of_inPathSet (h : inPathSet c = false) : endsPath c = false := by
  simp only [inPathSet, Bool.or_eq_false_iff] at h
  simp [endsPath, h]

/-- What is dropped at the end makes no difference. -/
lemma clean_dropEnd (hc : isLow c = false) (x s : List Char) :
    clean (x ++ c :: dropEndWhile isLow s) = clean (x ++ c :: s) := by
  have hself : dropEndWhile isLow (dropEndWhile isLow s) = dropEndWhile isLow s :=
    List.rdropWhile_idempotent _ _
  rw [clean_append_cons hc, clean_append_cons hc, hself]

/-- What is read in front of a query or a fragment. -/
lemma takeWhile_kept_append {s tail : List Char} (hs : ∀ c ∈ s, isLow c = false ∧ endsPath c = false)
    (htail : ∀ c ∈ tail.head?, endsPath c = true) :
    (kept (dropEndWhile isLow (s ++ tail))).takeWhile (!endsPath ·) = s := by
  have hwhole : s.takeWhile (!endsPath ·) = s := by
    rw [List.takeWhile_eq_self_iff]
    intro c hc
    simp [(hs c hc).2]
  have hkept := kept_of_not_low fun c hc => (hs c hc).1
  cases tail with
  | nil =>
      have hend : dropEndWhile isLow s = s :=
        List.rdropWhile_eq_self_iff.mpr fun hne => by simp [hs _ (List.getLast_mem hne)]
      rw [List.append_nil, hend, hkept, hwhole]
  | cons c rest =>
      have hc := htail c rfl
      have hlow : isLow c = false := by rcases endsPath_iff.mp hc with rfl | rfl <;> rfl
      rw [dropEndWhile_append_cons isLow hlow, kept_append_cons hlow, hkept, takeWhile_path hc,
        hwhole]

/-- A slash of either kind is among the characters, spelled out. -/
lemma exists_isSlash_iff {s : List Char} :
    (∃ c ∈ s, isSlash true c = true) ↔ '/' ∈ s ∨ '\\' ∈ s := by
  simp only [isSlash, Bool.true_and, Bool.or_eq_true, beq_iff_eq, and_or_left, exists_or,
    exists_eq_right]

/-- A name and slashes behind it are that name and empty segments. -/
lemma segmentsOf_literal (hplain : ∀ c ∈ name, inPathSet c = false)
    (hslash : ∀ c ∈ name, isSlash true c = false) (n : ℕ) :
    segmentsOf true (name ++ List.replicate n '/') = String.ofList name :: List.replicate n "" := by
  induction n with
  | zero =>
      rw [List.replicate_zero, List.append_nil, segmentsOf, splitOn_of_none hslash,
        List.map_singleton, encode_of_plain hplain]
      rfl
  | succ n ih =>
      rw [List.replicate_succ', ← List.append_assoc, segmentsOf_append_slash, ih,
        List.replicate_succ']
      rfl

/-- Empty segments at the end of a path are slashes behind it. -/
lemma text_append_name (before : List String) (name : String) (n : ℕ) :
    (Path.segments (before ++ name :: List.replicate n "")).text = String.ofList
      ((Path.segments before).text.toList ++ '/' :: (name.toList ++ List.replicate n '/')) := by
  induction n with
  | zero =>
      rw [← String.toList_inj]
      simp [Path.text, String.toList_append]
  | succ n ih =>
      have hlast : (Path.segments (before ++ name :: List.replicate (n + 1) "")).text =
          (Path.segments (before ++ name :: List.replicate n "")).text ++ "/" := by
        rw [List.replicate_succ', ← List.cons_append, ← List.append_assoc, ← String.toList_inj]
        simp [Path.text, String.toList_append]
      rw [hlast, ih, List.replicate_succ', ← String.toList_inj]
      simp [String.toList_append]

end Url

/-- A name that the path of an address has as it is written: it is one segment and stands for itself,
and nothing in it is encoded. -/
structure Url.IsLiteral (name : String) : Prop where
  ne_nil : name.toList ≠ []
  plain : ∀ c ∈ name.toList, Url.inPathSet c = false
  slash : ∀ c ∈ name.toList, Url.isSlash true c = false
  own : Url.isOwn name = true

instance (name : String) : Decidable (Url.IsLiteral name) :=
  decidable_of_iff (name.toList ≠ [] ∧ (name.toList.all fun c => !Url.inPathSet c) = true ∧
      (name.toList.all fun c => !Url.isSlash true c) = true ∧ Url.isOwn name = true)
    ⟨fun h => ⟨h.1, by simpa using h.2.1, by simpa using h.2.2.1, h.2.2.2⟩,
      fun h => ⟨h.ne_nil, by simpa using h.plain, by simpa using h.slash, h.own⟩⟩

/-- An address in parts: what stands in front of the last name, this name, slashes, and a query or a
fragment or both, or nothing. -/
structure Address where
  base : String
  name : String
  slashes : ℕ
  tail : String
  /-- The slash in front of the name is not one of those in front of the host. -/
  base_isSome : (Url.parse? base).isSome = true
  base_query : '?' ∉ base.toList
  base_fragment : '#' ∉ base.toList
  name_literal : Url.IsLiteral name
  tail_sign : tail = "" ∨ tail.toList.head? = some '?' ∨ tail.toList.head? = some '#'

namespace Address

variable {a : Address} {u : Url}

/-- The address without query and fragment. -/
def front (a : Address) : String :=
  a.base ++ "/" ++ a.name ++ String.ofList (List.replicate a.slashes '/')

/-- The address as it is written. -/
def text (a : Address) : String := a.front ++ a.tail

/-- The characters of an address without query and fragment. -/
lemma toList_front (a : Address) :
    a.front.toList = a.base.toList ++ '/' :: (a.name.toList ++ List.replicate a.slashes '/') := by
  simp [front, String.toList_append]

/-- No query or fragment starts in front of the name. -/
lemma base_within (a : Address) : ∀ c ∈ a.base.toList, Url.endsPath c = false := by
  intro c hc
  rw [← Bool.not_eq_true, Url.endsPath_iff]
  rintro (rfl | rfl)
  · exact a.base_query hc
  · exact a.base_fragment hc

/-- What follows the slashes starts a query or a fragment. -/
lemma tail_endsPath (a : Address) : ∀ c ∈ a.tail.toList.head?, Url.endsPath c = true := by
  intro c hc
  rcases a.tail_sign with hempty | hsign | hsign
  · simp [hempty] at hc
  · rw [hsign] at hc
    cases hc
    rfl
  · rw [hsign] at hc
    cases hc
    rfl

/-- The name can be that of a file. -/
lemma isName_name (a : Address) : Path.IsName a.name := by
  have hown := a.name_literal.own
  have hdots (l : List Char) (h : Url.isOwn (String.ofList l) = false) : a.name.toList ≠ l := by
    rintro heq
    rw [← String.ofList_toList (s := a.name), heq, h] at hown
    cases hown
  refine ⟨fun hmem => absurd (a.name_literal.slash '/' hmem) (by decide), a.name_literal.ne_nil,
    hdots ['.'] (by decide), hdots ['.', '.'] (by decide)⟩

/-- Neither a name nor a slash is dropped, or ends the path. -/
lemma name_within (a : Address) (n : ℕ) :
    ∀ c ∈ List.replicate n '/' ++ (a.name.toList ++ List.replicate a.slashes '/'),
      Url.isLow c = false ∧ Url.endsPath c = false := by
  intro c hc
  rcases List.mem_append.mp hc with hslash | hc
  · rw [List.eq_of_mem_replicate hslash]
    decide
  · rcases List.mem_append.mp hc with hname | hslash
    · have hplain := a.name_literal.plain c hname
      exact ⟨Url.isLow_of_inPathSet hplain, Url.endsPath_of_inPathSet hplain⟩
    · rw [List.eq_of_mem_replicate hslash]
      decide

/-- **The name is the last one in the path of the address.** -/
lemma fileName?_path (hu : Url.parse? a.text = some u) (hweb : u.isWeb = true) :
    Path.fileName? u.path.text = some a.name := by
  obtain ⟨n, hbase⟩ := Url.exists_trimEndOf_append a.base
  obtain ⟨b, hb⟩ := Option.isSome_iff_exists.mp a.base_isSome
  have hwithin := a.name_within n
  -- the slashes at the end of the base stand in front of the name
  generalize hs : List.replicate n '/' ++ (a.name.toList ++ List.replicate a.slashes '/') = s
    at hwithin
  have htext : a.text.toList = (trimEndOf '/' a.base).toList ++ '/' :: (s ++ a.tail.toList) := by
    rw [text, String.toList_append, toList_front, hbase, ← append_cons_replicate, hs]
    simp
  generalize hread : dropEndWhile Url.isLow (s ++ a.tail.toList) = t at *
  have hextends : Url.Extends a.base t
      (String.ofList ((trimEndOf '/' a.base).toList ++ '/' :: t)) :=
    ⟨String.toList_ofList, hread ▸ List.rdropWhile_idempotent _ _⟩
  have hsame : Url.parse? (String.ofList ((trimEndOf '/' a.base).toList ++ '/' :: t)) = some u := by
    rw [← hu]
    refine Url.parse?_congr ?_
    rw [String.toList_ofList, ← hread, Url.clean_dropEnd rfl, htext]
  obtain ⟨v, front, hfront, hending⟩ := Url.exists_ending hb hextends hsame hweb
  rw [hending hextends, Option.some.injEq] at hsame
  have hpath : u.path = Url.pathAfterAuthority true ((front ++ List.replicate n '/') ++
      '/' :: (a.name.toList ++ List.replicate a.slashes '/')) := by
    have hclear : ∀ c ∈ front ++ ['/'], (!Url.endsPath c) = true := by
      intro c hc
      rcases List.mem_append.mp hc with hc | hc
      · simp [a.base_within c (hfront hc)]
      · rw [List.mem_singleton.mp hc]
        rfl
    have hcut : (front ++ '/' :: Url.kept t).takeWhile (!Url.endsPath ·) = front ++ '/' :: s := by
      have hrest := Url.takeWhile_kept_append hwithin a.tail_endsPath
      rw [hread] at hrest
      rw [← List.singleton_append, ← List.append_assoc, List.takeWhile_append_of_pos hclear, hrest]
      simp
    rw [← hsame, Url.ending, hcut, ← append_cons_replicate, hs]
  have hsegments := Url.segmentsOf_literal a.name_literal.plain a.name_literal.slash a.slashes
  rw [String.ofList_toList] at hsegments
  obtain ⟨before, hbefore⟩ := Url.exists_path (front ++ List.replicate n '/')
  rw [hpath, hbefore, hsegments, Url.text_append_name]
  · exact Path.fileName?_append_name a.isName_name _ _
  · rw [hsegments]
    refine List.forall_mem_cons.mpr ⟨a.name_literal.own, fun t ht => ?_⟩
    rw [List.eq_of_mem_replicate ht]
    decide

end Address

/-! ### Stems -/

namespace Delivery

variable {a : Address} {path name locator : String}

/-- The stem of the last name in a path, or the standard one. -/
def pathStem (path : String) : String :=
  ((Path.stem? path).filter (· ≠ "")).getD "output"

/-- The stem of a path is that of its last name. -/
lemma pathStem_of_fileName? (hpath : Path.fileName? path = some name) (hname : Path.IsName name) :
    pathStem path = String.ofList (Path.splitName name).1 := by
  have hne : String.ofList (Path.splitName name).1 ≠ "" :=
    fun hempty => Path.splitName_fst_ne_nil hname.ne_nil (String.ofList_eq_empty_iff.mp hempty)
  rw [pathStem, Path.stem?, hpath, Option.map_some, Option.filter_some]
  simp [hne]

/-- The stem of a locator is that of its last name. -/
lemma stem_of_lastName (hlast : lastName locator = name) (hname : Path.IsName name) :
    stem locator = String.ofList (Path.splitName name).1 := by
  subst hlast
  exact pathStem_of_fileName? (Path.fileName?_of_isName hname) hname

/-- The last name of a locator, in terms of its characters. -/
lemma toList_lastName (locator : String) : (lastName locator).toList =
    lastPart (Url.isSlash true) (dropEndWhile (· == '/') locator.toList) := by
  rw [lastName, trimEndOf, String.toList_ofList, String.toList_ofList]
  rfl

/-- Slashes behind a name are left out. -/
lemma lastName_front (a : Address) : lastName a.front = a.name := by
  obtain ⟨init, d, hname⟩ := a.name.toList.eq_nil_or_concat'.resolve_left a.name_literal.ne_nil
  have hd : (d == '/') = false := by
    have hnot := a.name_literal.slash d (by simp [hname])
    simp only [Url.isSlash, Bool.or_eq_false_iff] at hnot
    exact hnot.1
  have hdrop : dropEndWhile (· == '/') (List.replicate a.slashes '/') = [] :=
    List.rdropWhile_eq_nil_iff.mpr fun c hc => by simp [List.eq_of_mem_replicate hc]
  have hsplit : a.front.toList =
      (a.base.toList ++ '/' :: init) ++ d :: List.replicate a.slashes '/' := by
    rw [Address.toList_front, hname]
    simp
  have hwhole : (a.base.toList ++ '/' :: init) ++ [d] = a.base.toList ++ '/' :: a.name.toList := by
    rw [hname]
    simp
  rw [← String.toList_inj, toList_lastName, hsplit, dropEndWhile_append_cons (· == '/') hd, hdrop,
    hwhole, lastPart_append_separator rfl, lastPart_of_none a.name_literal.slash]

/-- The stem of an address without query and fragment is that of its name. -/
lemma stem_front (a : Address) : stem a.front = String.ofList (Path.splitName a.name).1 :=
  stem_of_lastName (lastName_front a) a.isName_name

/-- What is behind the last separator of an address without query and fragment: the name, unless
slashes follow it. -/
lemma lastPart_front (a : Address) : lastPart (Url.isSlash true) a.front.toList =
    if a.slashes = 0 then a.name.toList else [] := by
  rw [Address.toList_front, lastPart_append_separator rfl]
  split_ifs with hslashes
  · rw [hslashes, List.replicate_zero, List.append_nil, lastPart_of_none a.name_literal.slash]
  · obtain ⟨n, hn⟩ := Nat.exists_eq_succ_of_ne_zero hslashes
    rw [hn, List.replicate_succ', ← List.append_assoc, lastPart_append_separator rfl]
    rfl

end Delivery

/-- The query or the fragment has no part in the stem. -/
inductive Address.Harmless (a : Address) : Prop where
  /-- There is none. -/
  | absent (h : a.tail = "")
  /-- It stands behind an extension, and goes with it. -/
  | behindExtension (hdot : '.' ∉ (trimEndOf '/' a.tail).toList)
      (hslash : '/' ∉ (trimEndOf '/' a.tail).toList)
      (hbackslash : '\\' ∉ (trimEndOf '/' a.tail).toList) (hslashes : a.slashes = 0)
      (hextension : (Path.extension? a.name).isSome = true)
  /-- It stands in front of another name, which happens to have the same stem. -/
  | sameStem (hseparator : '/' ∈ (trimEndOf '/' a.tail).toList ∨
        '\\' ∈ (trimEndOf '/' a.tail).toList)
      (hstem : Delivery.stem a.tail = Delivery.stem a.front)

namespace Delivery

variable {a : Address} {c : Char} {t : List Char}

/-- A sign at which a query or a fragment starts is in no stem of an address without them. -/
lemma endsPath_of_mem_stem_front (hc : c ∈ (stem a.front).toList) : Url.endsPath c = false := by
  rw [stem_front, String.toList_ofList] at hc
  exact Url.endsPath_of_inPathSet (a.name_literal.plain c (Path.splitName_subset a.name hc))

/-- The extension of the name of an address is what follows its stem. -/
lemma extension?_name (a : Address) :
    Path.extension? a.name = (Path.splitName a.name).2.map String.ofList := by
  rw [Path.extension?, Path.fileName?_of_isName a.isName_name, Option.bind_some]

/-- What a query or a fragment without separators makes of the stem. -/
lemma stem_text_iff_of_no_separator (hsign : Url.endsPath c = true)
    (hseparator : ∀ d ∈ c :: t, Url.isSlash true d = false)
    (hlast : (lastName a.text).toList = lastPart (Url.isSlash true) a.front.toList ++ c :: t) :
    stem a.text = stem a.front ↔
      '.' ∉ c :: t ∧ a.slashes = 0 ∧ (Path.extension? a.name).isSome = true := by
  have hdot : c ≠ '.' := by rcases Url.endsPath_iff.mp hsign with rfl | rfl <;> decide
  rw [lastPart_front] at hlast
  have hname : Path.IsName (lastName a.text) := by
    have hmem : c ∈ (lastName a.text).toList := by simp [hlast]
    have hne (l : List Char) (hl : ∀ d ∈ l, d = '.') : (lastName a.text).toList ≠ l :=
      fun heq => hdot (hl c (heq ▸ hmem))
    refine ⟨fun hslash => ?_, List.ne_nil_of_mem hmem, hne ['.'] (by simp), hne ['.', '.'] (by simp)⟩
    rw [toList_lastName] at hslash
    cases sep_of_mem_lastPart hslash
  have hstem : (stem a.text).toList =
      (Path.splitName (String.ofList ((if a.slashes = 0 then a.name.toList else []) ++ c :: t))).1 := by
    rw [stem_of_lastName rfl hname, ← hlast, String.ofList_toList, String.toList_ofList]
  rw [extension?_name, Option.isSome_map]
  constructor
  · intro hsame
    -- the sign that starts it would be in the stem
    by_contra hnot
    have hmem : c ∈ (stem a.text).toList := by
      rw [hstem]
      refine Path.mem_splitName_append hdot (or_iff_not_imp_left.mpr fun hsome => ?_)
      by_contra hdotless
      split_ifs at hsome with hslashes
      · rw [String.ofList_toList] at hsome
        have htail : '.' ∉ c :: t := List.not_mem_cons_of_ne_of_not_mem hdot.symm hdotless
        exact hnot ⟨htail, hslashes, Option.isSome_iff_ne_none.mpr hsome⟩
      · exact hsome rfl
    rw [hsame] at hmem
    rw [endsPath_of_mem_stem_front hmem] at hsign
    cases hsign
  · rintro ⟨hdotless, hslashes, hextension⟩
    rw [← String.toList_inj, hstem, if_pos hslashes, stem_front, String.toList_ofList]
    rw [← String.ofList_toList (s := a.name)] at hextension
    rw [Path.splitName_fst_append hextension hdotless, String.ofList_toList]

/-- The last name of an address is the last part of it and of its query or fragment together. -/
lemma exists_trimmed_tail (h : a.tail ≠ "") : ∃ c t, (trimEndOf '/' a.tail).toList = c :: t ∧
    Url.endsPath c = true ∧
    (lastName a.text).toList = lastPart (Url.isSlash true) (a.front.toList ++ c :: t) := by
  obtain ⟨c, rest, htail⟩ := List.exists_cons_of_ne_nil (String.toList_eq_nil_iff.not.mpr h)
  have hsign : Url.endsPath c = true := a.tail_endsPath c (by rw [htail]; rfl)
  have hslash : (c == '/') = false := by rcases Url.endsPath_iff.mp hsign with rfl | rfl <;> rfl
  refine ⟨c, dropEndWhile (· == '/') rest, ?_, hsign, ?_⟩
  · rw [trimEndOf, String.toList_ofList, htail]
    exact dropEndWhile_append_cons (· == '/') hslash [] rest
  · rw [toList_lastName, Address.text, String.toList_append, htail,
      dropEndWhile_append_cons (· == '/') hslash]

/-- **A query or a fragment makes no difference to the stem exactly if it is harmless.** -/
lemma stem_text_iff (a : Address) : stem a.text = stem a.front ↔ a.Harmless := by
  by_cases hempty : a.tail = ""
  · have hself : a.text = a.front := by rw [Address.text, hempty, String.append_empty]
    exact iff_of_true (congrArg stem hself) (.absent hempty)
  obtain ⟨c, t, htrim, hsign, hlast⟩ := exists_trimmed_tail hempty
  by_cases hseparator : ∃ d ∈ c :: t, Url.isSlash true d = true
  · have htext : stem a.text = stem a.tail := by
      have hsame : lastName a.text = lastName a.tail := by
        rw [← String.toList_inj, hlast, lastPart_append_of_some hseparator, toList_lastName, ← htrim,
          trimEndOf, String.toList_ofList]
      exact congrArg pathStem hsame
    rw [← htrim, Url.exists_isSlash_iff] at hseparator
    rw [htext]
    constructor
    · intro hstem
      exact .sameStem hseparator hstem
    · rintro (habsent | ⟨-, hslash, hbackslash, -, -⟩ | ⟨-, hstem⟩)
      · exact absurd habsent hempty
      · exact absurd hseparator (not_or.mpr ⟨hslash, hbackslash⟩)
      · exact hstem
  · have hnone : ∀ d ∈ c :: t, Url.isSlash true d = false := by simpa using hseparator
    rw [lastPart_append_of_none hnone] at hlast
    rw [stem_text_iff_of_no_separator hsign hnone hlast, ← htrim]
    rw [← htrim, Url.exists_isSlash_iff, not_or] at hseparator
    constructor
    · rintro ⟨hdot, hslashes, hextension⟩
      exact .behindExtension hdot hseparator.1 hseparator.2 hslashes hextension
    · rintro (habsent | ⟨hdot, -, -, hslashes, hextension⟩ | ⟨hsome, -⟩)
      · exact absurd habsent hempty
      · exact ⟨hdot, hslashes, hextension⟩
      · exact absurd hsome (not_or.mpr hseparator)

/-- In one directory different names make different paths. -/
lemma join_inj {directory name name' : String} (hname : Path.IsName name)
    (hname' : Path.IsName name') (hdirectory : directory ≠ "")
    (h : Path.join directory name = Path.join directory name') : name = name' := by
  have hparts := congrArg Path.parts h
  rw [Path.parts_join hname hdirectory, Path.parts_join hname' hdirectory] at hparts
  exact (List.append_singleton_inj.mp hparts).2

/-- **Files that are named for an address.**  Where a web address ends in a name that its path has as
it is written, the file that is made for it without query and fragment has the stem of the last name
in the path; and with them it has the same path exactly if they are harmless. -/
theorem targetPath_address (a : Address) (operation : Operation) (t : LocalTime) {m : Machine}
    {directory : String} {u : Url} (hdirectory : m.disk.isDirectory directory = true)
    (hu : Url.parse? a.text = some u) (hweb : u.isWeb = true) :
    let path (locator : String) := targetPath { m with stamp := t.stamp } directory locator operation
    path a.front = Path.join directory
        (pathStem u.path.text ++ "_" ++ operation.fileTag ++ "_" ++ t.stamp ++ ".txt") ∧
      (path a.text = path a.front ↔ a.Harmless) := by
  intro path
  have hpath (locator : String) :
      path locator = Path.join directory (fileName locator operation t.stamp) := if_pos hdirectory
  have hstem : stem a.front = pathStem u.path.text := by
    rw [stem_front, pathStem_of_fileName? (Address.fileName?_path hu hweb) a.isName_name]
  have hsame : path a.text = path a.front ↔ stem a.text = stem a.front := by
    rw [hpath, hpath]
    constructor
    · intro h
      have hname := join_inj (isName_fileName a.text operation t)
        (isName_fileName a.front operation t) (Disk.ne_empty_of_isDirectory hdirectory) h
      exact (fileName_inj hname).1
    · intro h
      rw [fileName, fileName, h]
  refine ⟨?_, hsame.trans (stem_text_iff a)⟩
  rw [hpath, fileName, hstem]

/-- An address with a query and a fragment behind an extension. -/
theorem targetPath_address_token :
    let a : Address := ⟨"https://example.com/raw", "main.go", 0, "?token=abc#L10", by decide +kernel,
      by decide, by decide, by decide, by decide⟩
    let path (locator : String) :=
      targetPath { shelf with stamp := noon.stamp } "out" locator .analyze
    shelf.disk.isDirectory "out" = true ∧ a.Harmless ∧
      path a.text = "out/main_analyze_20240229_120000.txt" := by
  intro a path
  have hharmless : a.Harmless := .behindExtension (by decide) (by decide) (by decide) rfl (by decide)
  have hweb : ((Url.parse? a.text).map Url.isWeb) = some true := by decide +kernel
  obtain ⟨u, hu, hweb⟩ := Option.map_eq_some_iff.mp hweb
  obtain ⟨-, hsame⟩ := targetPath_address a .analyze noon isDirectory_shelf hu hweb
  have hfront : path a.front = "out/main_analyze_20240229_120000.txt" := by
    have hpath : path a.front = Path.join "out" (fileName a.front .analyze noon.stamp) :=
      if_pos isDirectory_shelf
    rw [hpath]
    decide
  exact ⟨isDirectory_shelf, hharmless, (hsame.mpr hharmless).trans hfront⟩

/-- **A query with a dot in it becomes part of the name**, and an address without a path gives the
name of its host. -/
theorem targetPath_asked :
    let path (locator : String) :=
      targetPath { shelf with stamp := noon.stamp } "out" locator .analyze
    let address (locator : String) :=
      (Url.parse? locator).map fun u => (u.isWeb, pathStem u.path.text)
    shelf.disk.isDirectory "out" = true ∧
      path "https://example.com/fib.py" = "out/fib_analyze_20240229_120000.txt" ∧
      path "https://example.com/fib.py?v=1.2" = "out/fib.py?v=1_analyze_20240229_120000.txt" ∧
      path "https://example.com" = "out/example_analyze_20240229_120000.txt" ∧
      address "https://example.com/fib.py?v=1.2" = some (true, "fib") ∧
      address "https://example.com" = some (true, "output") := by
  intro path address
  have hpath (locator : String) :
      path locator = Path.join "out" (fileName locator .analyze noon.stamp) :=
    if_pos isDirectory_shelf
  refine ⟨isDirectory_shelf, ?_, ?_, ?_, by decide +kernel, by decide +kernel⟩
  · rw [hpath]
    decide
  · rw [hpath]
    decide
  · rw [hpath]
    decide

end Delivery

end CodeReview

import CodeReview.Proofs.Text.Trim
import CodeReview.Proofs.Url.Alike

/-!
# Addresses behind a base

A text is put behind a base that has lost the slashes at its end, with one slash between them.  The
two are read together, so that what stands behind may end up elsewhere than below the base: in a
query, in a host, behind a blank that the base alone would lose.

`Url.below` is where it ought to be.  Reading up to the slash does not depend on what follows
(`exists_ending`), and dots in front are resolved without regard to segments that stand for
themselves (`resolveDots_append`).  Therefore every plain text behind a base is below it or none is
(`parse?_below_iff`), and of any other text where the whole has neither query nor fragment the last
segment can be told (`last_of_parse?`).
-/

namespace CodeReview.Url

open CodeReview.Text

/-! ### Schemes -/

/-- A character of a scheme. -/
def inScheme (c : Char) : Bool := c.isAlphanum || c == '+' || c == '-' || c == '.'

/-- A scheme as it may be written. -/
structure IsScheme (letters : List Char) : Prop where
  first : ∃ c rest, letters = c :: rest ∧ c.isAlpha = true
  all : ∀ c ∈ letters, inScheme c = true

section Scheme

variable {s rest letters : List Char} {scheme : String}

/-- A scheme in front of a colon is found, in small letters. -/
lemma splitScheme?_of_isScheme (h : IsScheme letters) (rest : List Char) :
    splitScheme? (letters ++ ':' :: rest) =
      some (String.ofList (letters.map Char.toLower), rest) := by
  obtain ⟨⟨c, more, rfl, hc⟩, hall⟩ := h
  have hdrop : (c :: (more ++ ':' :: rest)).dropWhile inScheme = ':' :: rest := by
    rw [← List.cons_append, List.dropWhile_append_of_pos hall]
    exact List.dropWhile_cons_of_neg (by decide)
  have htake : (c :: (more ++ ':' :: rest)).takeWhile inScheme = c :: more := by
    rw [← List.cons_append, List.takeWhile_append_of_pos hall,
      List.takeWhile_cons_of_neg (by decide), List.append_nil]
  unfold inScheme at hdrop htake
  simp only [List.cons_append, splitScheme?, hdrop, htake, hc, if_true]

/-- What is found in front of a colon is a scheme, in small letters. -/
lemma exists_isScheme (h : splitScheme? s = some (scheme, rest)) :
    ∃ letters, IsScheme letters ∧ s = letters ++ ':' :: rest ∧
      scheme = String.ofList (letters.map Char.toLower) := by
  unfold splitScheme? at h
  cases s with
  | nil => cases h
  | cons c more =>
    simp only at h
    split at h
    · next rest' hdrop =>
      split_ifs at h with hc
      obtain ⟨rfl, rfl⟩ := Prod.mk.inj (Option.some.inj h)
      refine ⟨_, ⟨?_, fun d hd => List.mem_takeWhile_imp hd⟩, ?_, rfl⟩
      · refine ⟨c, more.takeWhile inScheme, List.takeWhile_cons_of_pos ?_, hc⟩
        simp [inScheme, Char.isAlphanum, hc]
      · exact (hdrop ▸ List.takeWhile_append_dropWhile).symm
    · cases h

/-- What is put behind an address does not change its scheme. -/
lemma splitScheme?_append (h : splitScheme? s = some (scheme, rest)) (z : List Char) :
    splitScheme? (s ++ z) = some (scheme, rest ++ z) := by
  obtain ⟨letters, hletters, rfl, rfl⟩ := exists_isScheme h
  rw [List.append_assoc, List.cons_append, splitScheme?_of_isScheme hletters]

/-- No scheme reaches across a character that is neither in a scheme nor behind one. -/
lemma splitScheme?_append_cons {c : Char} (hc : inScheme c = false) (hcolon : c ≠ ':')
    (h : splitScheme? s = none) (z : List Char) : splitScheme? (s ++ c :: z) = none := by
  rw [Option.eq_none_iff_forall_ne_some]
  rintro ⟨scheme, rest⟩ hsome
  obtain ⟨letters, hletters, hs, rfl⟩ := exists_isScheme hsome
  obtain ⟨between, hbefore, hafter⟩ | ⟨between, hbefore, hafter⟩ := List.append_eq_append_iff.mp hs
  · cases between with
    | nil => exact hcolon (List.cons.inj hafter).1
    | cons d more =>
        rw [List.cons_append, List.cons.injEq] at hafter
        have hmem : c ∈ letters := by simp [hbefore, ← hafter.1]
        have hin := hletters.all c hmem
        rw [hc] at hin
        cases hin
  · cases between with
    | nil => exact hcolon (List.cons.inj hafter).1.symm
    | cons d more =>
        rw [List.cons_append, List.cons.injEq] at hafter
        rw [hbefore, ← hafter.1, splitScheme?_of_isScheme hletters] at h
        cases h

/-- A slash and what follows it do not make a scheme. -/
lemma splitScheme?_slash (h : splitScheme? s = none) (z : List Char) :
    splitScheme? (s ++ '/' :: z) = none := splitScheme?_append_cons rfl (by decide) h z

end Scheme

/-! ### What is read of an address -/

/-- Nothing is dropped after a slash but tabs and line breaks. -/
lemma clean_slash (x : List Char) {s : List Char} (hs : dropEndWhile isLow s = s) :
    clean (x ++ '/' :: s) = kept (x.dropWhile isLow) ++ '/' :: kept s := by
  rw [clean_append_cons rfl, hs]

/-- What is read of an address is the beginning of what is kept without the front. -/
lemma clean_prefix (s : List Char) : clean s <+: kept (s.dropWhile isLow) :=
  (List.rdropWhile_prefix ..).filter _

section Parse

variable {input scheme : String} {rest s : List Char} {u : Url}

/-- The scheme, and that an address of a special scheme has a host. -/
lemma afterSlashes?_spec (h : afterSlashes? scheme s = some u) :
    u.scheme = scheme ∧ (isSpecial scheme = true → u.host.isSome = true) := by
  unfold afterSlashes? at h
  simp only [Option.bind_eq_bind, Option.bind_none] at h
  generalize splitUser (s.takeWhile fun c => !endsAuthority (isSpecial scheme) c) = user at h
  generalize splitHost false user.2 = host at h
  generalize credentialsOf (user.1.getD []) = credentials at h
  split_ifs at h with hnouser hnohost hempty hspecial
  · -- an empty host is for schemes that are not special
    obtain ⟨found, -, hu⟩ := Option.bind_eq_some_iff.mp h
    obtain ⟨port, -, hu⟩ := Option.bind_eq_some_iff.mp hu
    obtain rfl := Option.some.inj hu
    refine ⟨rfl, fun hspecial => absurd ?_ hnohost⟩
    simp [hempty, hspecial]
  · obtain ⟨found, hfound, hu⟩ := Option.bind_eq_some_iff.mp h
    obtain ⟨port, -, hu⟩ := Option.bind_eq_some_iff.mp hu
    obtain ⟨name, -, rfl⟩ := Option.map_eq_some_iff.mp hfound
    obtain rfl := Option.some.inj hu
    exact ⟨rfl, fun _ => rfl⟩
  · obtain ⟨found, -, hu⟩ := Option.bind_eq_some_iff.mp h
    obtain ⟨port, -, hu⟩ := Option.bind_eq_some_iff.mp hu
    obtain rfl := Option.some.inj hu
    exact ⟨rfl, fun h => absurd h hspecial⟩

/-- A file URL has its scheme. -/
lemma fileUrl?_scheme (h : fileUrl? s = some u) : u.scheme = "file" := by
  unfold fileUrl? at h
  simp only [Option.bind_eq_bind] at h
  obtain ⟨host, -, hu⟩ := Option.bind_eq_some_iff.mp h
  exact Option.some.inj hu ▸ rfl

/-- An address has the scheme that is in front of the colon. -/
lemma parse?_scheme (hsplit : splitScheme? (clean input.toList) = some (scheme, rest))
    (h : parse? input = some u) : u.scheme = scheme := by
  rw [parse?, hsplit] at h
  simp only [Option.bind_eq_bind, Option.bind_some] at h
  split_ifs at h with hfile hspecial
  · exact (fileUrl?_scheme h).trans (beq_iff_eq.mp hfile).symm
  · exact (afterSlashes?_spec h).1
  · split at h
    · exact (afterSlashes?_spec h).1
    · exact Option.some.inj h ▸ rfl
    · exact Option.some.inj h ▸ rfl

/-- Nothing but slashes after a scheme of the web is no address. -/
lemma afterSlashes?_nil (hscheme : scheme = "http" ∨ scheme = "https") :
    afterSlashes? scheme [] = none := by
  rcases hscheme with rfl | rfl <;> rfl

/-- A web address has a host. -/
lemma host_isSome_of_isWeb (h : parse? input = some u) (hweb : u.isWeb = true) :
    u.host.isSome = true := by
  cases hsplit : splitScheme? (clean input.toList) with
  | none =>
      rw [parse?, hsplit] at h
      cases h
  | some p =>
      have hscheme := isWeb_iff.mp hweb
      rw [parse?_scheme hsplit h] at hscheme
      rw [parse?_of_web hsplit hscheme] at h
      refine (afterSlashes?_spec h).2 ?_
      rcases hscheme with hscheme | hscheme
      · rw [hscheme]; rfl
      · rw [hscheme]; rfl

end Parse

/-! ### Paths with dots -/

/-- A segment that stands for itself. -/
def isOwn (s : String) : Bool := !isDoubleDot s && !isSingleDot s

section Dots

variable {file : Bool}

/-- Segments that stand for themselves stay when dots are resolved. -/
lemma resolveDots_own (done : List String) {parts : List String}
    (h : ∀ s ∈ parts, isOwn s = true) : resolveDots file done parts = done.reverse ++ parts := by
  induction parts generalizing done with
  | nil => simp [resolveDots]
  | cons s rest ih =>
      rw [List.forall_mem_cons, isOwn, Bool.and_eq_true, Bool.not_eq_true', Bool.not_eq_true'] at h
      simp only [resolveDots, h.1.1, h.1.2, Bool.false_eq_true, if_false]
      rw [ih _ h.2, List.reverse_cons, List.append_assoc, List.singleton_append]

/-- What dots in front make of a path does not depend on the segments behind them. -/
lemma resolveDots_append (file : Bool) (front done : List String) :
    ∃ kept, ∀ parts, parts ≠ [] → (∀ s ∈ parts, isOwn s = true) →
      resolveDots file done (front ++ parts) = kept ++ parts := by
  induction front generalizing done with
  | nil => exact ⟨done.reverse, fun parts _ hparts => resolveDots_own done hparts⟩
  | cons s rest ih =>
      obtain ⟨kept, hkept⟩ := ih (if isDoubleDot s then dropLastSegment file done
        else if isSingleDot s then done else s :: done)
      refine ⟨kept, fun parts hne hparts => ?_⟩
      have hlast : (rest ++ parts).isEmpty = false := by
        simp [List.isEmpty_eq_false_iff, hne]
      rw [← hkept parts hne hparts]
      simp only [List.cons_append, resolveDots, hlast, Bool.false_eq_true, if_false]

end Dots

/-! ### Segments behind a slash -/

section Segments

variable {s : List Char}

/-- Every path has a segment. -/
lemma segmentsOf_ne_nil (s : List Char) : segmentsOf true s ≠ [] := by
  rw [segmentsOf, Ne, List.map_eq_nil_iff]
  exact splitOn_ne_nil _ s

/-- A slash separates the segments in front of it from those behind it. -/
lemma segmentsOf_append_slash (x s : List Char) :
    segmentsOf true (x ++ '/' :: s) = segmentsOf true x ++ segmentsOf true s := by
  rw [segmentsOf, splitOn_append_separator rfl, List.map_append]
  rfl

/-- The segments of a path that goes on after a slash. -/
lemma pathAfterAuthority_slash (front : List Char) :
    ∃ before, ∀ s, pathAfterAuthority true (front ++ '/' :: s) =
      .segments (resolveDots false [] (before ++ segmentsOf true s)) := by
  cases front with
  | nil => exact ⟨[], fun s => rfl⟩
  | cons c more =>
      refine ⟨segmentsOf true (if isSlash true c then more else c :: more), fun s => ?_⟩
      rw [← segmentsOf_append_slash, List.cons_append]
      by_cases hc : isSlash true c = true
      · simp only [pathAfterAuthority, hc, if_true]
      · simp only [pathAfterAuthority, hc, Bool.false_eq_true, if_false, List.cons_append]

/-- Segments that stand for themselves are the end of a path. -/
lemma exists_path (front : List Char) :
    ∃ before, ∀ s, (∀ t ∈ segmentsOf true s, isOwn t = true) →
      pathAfterAuthority true (front ++ '/' :: s) = .segments (before ++ segmentsOf true s) := by
  obtain ⟨parts, hparts⟩ := pathAfterAuthority_slash front
  obtain ⟨before, hbefore⟩ := resolveDots_append false parts []
  refine ⟨before, fun s hs => ?_⟩
  rw [hparts, hbefore _ (segmentsOf_ne_nil s) hs]

/-- The last segment. -/
def lastSegment (s : List Char) : String :=
  String.ofList (encode inPathSet (lastPart (isSlash true) s))

/-- A last segment that stands for itself is the last of the path. -/
lemma exists_path_last (front : List Char) (hs : isOwn (lastSegment s) = true) :
    ∃ before, pathAfterAuthority true (front ++ '/' :: s) =
      .segments (before ++ [lastSegment s]) := by
  obtain ⟨parts, hparts⟩ := pathAfterAuthority_slash front
  obtain ⟨init, hinit⟩ := List.getLast?_eq_some_iff.mp (getLast?_splitOn (isSlash true) s)
  have hsegments : segmentsOf true s =
      init.map (fun part => String.ofList (encode inPathSet part)) ++ [lastSegment s] := by
    rw [segmentsOf, hinit, List.map_append]
    rfl
  obtain ⟨before, hbefore⟩ := resolveDots_append false
    (parts ++ init.map fun part => String.ofList (encode inPathSet part)) []
  refine ⟨before, ?_⟩
  rw [hparts, hsegments, ← List.append_assoc, hbefore _ (by simp) (by simpa using hs)]

/-- There is neither query nor fragment where no character starts one. -/
lemma tailOf_eq_none_iff :
    tailOf true (s.dropWhile (!endsPath ·)) = (none, none) ↔ ∀ c ∈ s, endsPath c = false := by
  constructor
  · intro h
    by_contra! hsome
    obtain ⟨c, hc, hends⟩ := hsome
    have hne : s.dropWhile (!endsPath ·) ≠ [] := fun hnil =>
      hends (by simpa using List.dropWhile_eq_nil_iff.mp hnil c hc)
    obtain ⟨d, rest, hd⟩ := List.exists_cons_of_ne_nil hne
    have hfirst := List.head?_dropWhile_not (!endsPath ·) s
    rw [hd] at hfirst h
    have hsign : d = '?' ∨ d = '#' := by simpa [endsPath, ← or_iff_not_imp_left] using hfirst
    rcases hsign with rfl | rfl
    · cases h
    · cases h
  · intro h
    have hnil : s.dropWhile (!endsPath ·) = [] := by
      rw [List.dropWhile_eq_nil_iff]
      intro c hc
      simp [h c hc]
    rw [hnil]
    rfl

end Segments

/-! ### Addresses below an address -/

/-- The segments of the path without the empty ones at its end. -/
def stem (u : Url) : List String :=
  match u.path with
  | .opaqueText _ => []
  | .segments parts => dropEndWhile (· == "") parts

/-- The address with these segments behind its path, and without query and fragment. -/
def below (u : Url) (parts : List String) : Url :=
  { u with path := .segments (u.stem ++ parts), query := none, fragment := none }

/-- A text that goes on behind a base with a slash. -/
structure Extends (base : String) (s : List Char) (text : String) : Prop where
  eq : text.toList = (trimEndOf '/' base).toList ++ '/' :: s
  /-- Nothing is dropped at its end. -/
  sound : dropEndWhile isLow s = s

section Extension

variable {base text : String} {b u : Url} {s : List Char}

/-- What is read of a text that extends a base: the base, a slash, and what is kept of the rest. -/
lemma Extends.clean_eq (h : Extends base s text) :
    clean text.toList = kept ((trimEndOf '/' base).toList.dropWhile isLow) ++ '/' :: kept s := by
  rw [h.eq, clean_slash _ h.sound]

/-- Nothing but slashes is cut off. -/
lemma exists_trimEndOf_append (base : String) :
    ∃ n, base.toList = (trimEndOf '/' base).toList ++ List.replicate n '/' := by
  refine ⟨(base.toList.reverse.takeWhile (· == '/')).length, ?_⟩
  have hslashes : (base.toList.reverse.takeWhile (· == '/')).reverse =
      List.replicate (base.toList.reverse.takeWhile (· == '/')).length '/' := by
    refine List.eq_replicate_iff.mpr ⟨List.length_reverse, fun c hc => ?_⟩
    simpa using List.mem_takeWhile_imp (List.mem_reverse.mp hc)
  rw [← hslashes, trimEndOf, String.toList_ofList, dropEndWhile, ← List.reverse_append,
    List.takeWhile_append_dropWhile, List.reverse_reverse]

/-- What is read of a base is the start of its text without the slashes at its end, and slashes. -/
lemma exists_clean_append (base : String) :
    ∃ more slashes, (∀ c ∈ slashes, isSlash true c = true) ∧
      clean base.toList ++ more =
        kept ((trimEndOf '/' base).toList.dropWhile isLow) ++ slashes := by
  obtain ⟨n, hcut⟩ := exists_trimEndOf_append base
  have hslashes : ∀ c ∈ List.replicate n '/', c = '/' := fun _ => List.eq_of_mem_replicate
  generalize List.replicate n '/' = slashes at hcut hslashes
  have hdrop : base.toList.dropWhile isLow =
      (trimEndOf '/' base).toList.dropWhile isLow ++ slashes := by
    cases slashes with
    | nil => rw [hcut, List.append_nil, List.append_nil]
    | cons c rest =>
        have hc : isLow c = false := by
          rw [hslashes c List.mem_cons_self]
          rfl
        rw [hcut, dropWhile_append_cons isLow hc]
  obtain ⟨more, hmore⟩ := clean_prefix base.toList
  refine ⟨more, kept slashes, fun c hc => ?_, ?_⟩
  · rw [hslashes c (List.mem_of_mem_filter hc)]
    rfl
  · rw [hmore, hdrop, kept_append]

/-- Nothing but slashes after the scheme would be no base. -/
lemma dropWhile_slash_ne_nil {scheme : String} {x : List Char} (hbase : parse? base = some b)
    (hsplit : splitScheme? (kept ((trimEndOf '/' base).toList.dropWhile isLow)) = some (scheme, x))
    (hscheme : scheme = "http" ∨ scheme = "https") : x.dropWhile (isSlash true) ≠ [] := by
  intro hnil
  obtain ⟨more, slashes, hslashes, hcut⟩ := exists_clean_append base
  cases hown : splitScheme? (clean base.toList) with
  | none =>
      rw [parse?, hown] at hbase
      cases hbase
  | some p =>
      have hsame := splitScheme?_append hown more
      rw [hcut, splitScheme?_append hsplit slashes, Option.some.injEq, Prod.mk.injEq] at hsame
      obtain ⟨rfl, hmore⟩ := hsame
      have hrest : p.2.dropWhile (isSlash true) = [] := by
        rw [List.dropWhile_eq_nil_iff] at hnil ⊢
        intro c hc
        have hmem : c ∈ x ++ slashes := hmore ▸ List.mem_append_left more hc
        exact (List.mem_append.mp hmem).elim (hnil c) (hslashes c)
      rw [parse?_of_web hown hscheme, hrest, afterSlashes?_nil hscheme] at hbase
      cases hbase

/-- Where one text behind a base is a web address, every text behind it is, and they differ only in
what follows the slash; all in front of it is from the base. -/
lemma exists_ending (hbase : parse? base = some b) (ht : Extends base s text)
    (hu : parse? text = some u) (hweb : u.isWeb = true) :
    ∃ (v : Url) (front : List Char), front ⊆ base.toList ∧ ∀ {s text}, Extends base s text →
      parse? text = some (v.ending true (front ++ '/' :: kept s)) := by
  -- the scheme ends in front of the slash, and so does the authority
  cases hsplit : splitScheme? (kept ((trimEndOf '/' base).toList.dropWhile isLow)) with
  | none =>
      rw [parse?, ht.clean_eq, splitScheme?_slash hsplit] at hu
      cases hu
  | some p =>
      obtain ⟨scheme, x⟩ := p
      have htext : ∀ {s text}, Extends base s text →
          splitScheme? (clean text.toList) = some (scheme, x ++ '/' :: kept s) := fun h => by
        rw [h.clean_eq, splitScheme?_append hsplit]
      have hscheme : scheme = "http" ∨ scheme = "https" := by
        rw [← parse?_scheme (htext ht) hu]
        exact isWeb_iff.mp hweb
      have hparse : ∀ {s text}, Extends base s text → parse? text =
          afterSlashes? scheme (x.dropWhile (isSlash true) ++ '/' :: kept s) := fun h => by
        rw [parse?_of_web (htext h) hscheme, List.dropWhile_append]
        simp [dropWhile_slash_ne_nil hbase hsplit hscheme]
      have hspecial : isSpecial scheme = true := by rcases hscheme with rfl | rfl <;> rfl
      obtain ⟨front, hmem, hfront⟩ := afterSlashes?_append_end scheme (c := '/') rfl
        (x.dropWhile (isSlash true))
      rw [hspecial] at hfront
      rw [hparse ht, hfront] at hu
      obtain ⟨v, hv, -⟩ := Option.map_eq_some_iff.mp hu
      refine ⟨v, front, fun c hc => ?_, fun h => ?_⟩
      · obtain ⟨letters, -, heq, -⟩ := exists_isScheme hsplit
        have htrim : (trimEndOf '/' base).toList ⊆ base.toList := by
          obtain ⟨n, hcut⟩ := exists_trimEndOf_append base
          rw [hcut]
          exact List.subset_append_left _ _
        have hkept : c ∈ kept ((trimEndOf '/' base).toList.dropWhile isLow) := by
          have hx : c ∈ x := List.dropWhile_subset _ (hmem hc)
          rw [heq]
          exact List.mem_append_right _ (List.mem_cons_of_mem _ hx)
        exact htrim (List.dropWhile_subset _ (List.mem_of_mem_filter hkept))
      · rw [hparse h, hfront, hv, Option.map_some]

/-- A text without query and fragment whose segments stand for themselves. -/
structure IsPlain (s : List Char) : Prop where
  within : ∀ c ∈ s, endsPath c = false
  own : ∀ t ∈ segmentsOf true s, isOwn t = true

instance (s : List Char) : Decidable (IsPlain s) :=
  decidable_of_iff ((s.all fun c => !endsPath c) = true ∧ (segmentsOf true s).all isOwn = true)
    ⟨fun h => ⟨by simpa using h.1, by simpa using h.2⟩,
      fun h => ⟨by simpa using h.within, by simpa using h.own⟩⟩

variable {front s' : List Char} {text' : String}

/-- Without query and fragment no character starts one. -/
lemma ending_query_fragment (h : u.ending true s = b) (hquery : b.query = none)
    (hfragment : b.fragment = none) : ∀ c ∈ s, endsPath c = false := by
  subst h
  exact tailOf_eq_none_iff.mp (Prod.ext hquery hfragment)

/-- Which plain text stands behind the slash makes no difference to what is in front. -/
lemma ending_below (hs : IsPlain s) (hs' : IsPlain s')
    (h : u.ending true (front ++ '/' :: s) = b.below (segmentsOf true s)) :
    u.ending true (front ++ '/' :: s') = b.below (segmentsOf true s') := by
  obtain ⟨before, hbefore⟩ := exists_path front
  -- there is no query and no fragment, so both texts are in the path as a whole
  have hfront : ∀ c ∈ front, endsPath c = false := fun c hc =>
    ending_query_fragment h rfl rfl c (List.mem_append_left _ hc)
  have hform : ∀ s, IsPlain s → u.ending true (front ++ '/' :: s) = { u with
      path := .segments (before ++ segmentsOf true s), query := none, fragment := none } := by
    intro s hs
    have hall : ∀ c ∈ front ++ '/' :: s, endsPath c = false := by
      intro c hc
      rw [List.mem_append, List.mem_cons] at hc
      rcases hc with hc | rfl | hc
      · exact hfront c hc
      · rfl
      · exact hs.within c hc
    have hwhole : (front ++ '/' :: s).takeWhile (!endsPath ·) = front ++ '/' :: s := by
      rw [List.takeWhile_eq_self_iff]
      intro c hc
      simp [hall c hc]
    simp only [ending, hwhole, tailOf_eq_none_iff.mpr hall, hbefore s hs.own]
  rw [hform s hs] at h
  have hstem : before = b.stem := by
    have hpath := congrArg Url.path h
    exact List.append_cancel_right (Path.segments.inj hpath)
  rw [hform s' hs', hstem]
  exact congrArg (fun v => { v with path := .segments (b.stem ++ segmentsOf true s') }) h

/-- If one plain text behind a base is read as segments below it, so is every other. -/
lemma parse?_below_of (hbase : parse? base = some b) (hweb : b.isWeb = true)
    (ht : Extends base s text) (ht' : Extends base s' text') (hs : IsPlain (kept s))
    (hs' : IsPlain (kept s')) (h : parse? text = some (b.below (segmentsOf true (kept s)))) :
    parse? text' = some (b.below (segmentsOf true (kept s'))) := by
  obtain ⟨v, front, -, hread⟩ := exists_ending hbase ht h hweb
  rw [hread ht, Option.some.injEq] at h
  rw [hread ht', ending_below hs hs' h]

/-- **Whether a plain text behind a base is below it does not depend on the text.** -/
lemma parse?_below_iff (hbase : parse? base = some b) (hweb : b.isWeb = true)
    (ht : Extends base s text) (ht' : Extends base s' text') (hs : IsPlain (kept s))
    (hs' : IsPlain (kept s')) :
    parse? text = some (b.below (segmentsOf true (kept s))) ↔
      parse? text' = some (b.below (segmentsOf true (kept s'))) :=
  ⟨parse?_below_of hbase hweb ht ht' hs hs', parse?_below_of hbase hweb ht' ht hs' hs⟩

/-- What stands behind a base where the whole has neither query nor fragment. -/
lemma last_of_parse? (hbase : parse? base = some b) (ht : Extends base s text)
    (h : parse? text = some u) (hweb : u.isWeb = true) (hquery : u.query = none)
    (hfragment : u.fragment = none) :
    (∀ c ∈ kept s, endsPath c = false) ∧ (isOwn (lastSegment (kept s)) = true →
      ∃ before, u.path = .segments (before ++ [lastSegment (kept s)])) := by
  obtain ⟨v, front, -, hread⟩ := exists_ending hbase ht h hweb
  rw [hread ht, Option.some.injEq] at h
  have hall := ending_query_fragment h hquery hfragment
  refine ⟨fun c hc => hall c (List.mem_append_right _ (List.mem_cons_of_mem _ hc)), fun hown => ?_⟩
  obtain ⟨before, hbefore⟩ := exists_path_last front hown
  refine ⟨before, ?_⟩
  have hwhole : (front ++ '/' :: kept s).takeWhile (!endsPath ·) = front ++ '/' :: kept s := by
    rw [List.takeWhile_eq_self_iff]
    intro c hc
    simp [hall c hc]
  rw [← h, ← hbefore, ending, hwhole]

end Extension

end CodeReview.Url

import CodeReview.Proofs.Source.Listed
import CodeReview.Proofs.Url.Segment

/-!
# Addresses between blanks

Blanks in ASCII are dropped at the ends of an address, other blanks are not.  In front of an address
they hide it (`parse?_of_high_before`).  Behind it they are read as part of it: of its query or
fragment where one of the two has started, which leaves host and path as they are
(`parse?_trunk`), and otherwise of its host or its path, whose last segment then ends in an encoded
blank and has no language (`languageOfPath?_of_high_behind`).
-/

namespace CodeReview.Url

open CodeReview.Text

variable {gap s x y z : List Char} {c : Char} {a b : String}

/-! ### What is dropped -/

/-- Blanks in ASCII in front of an address are dropped. -/
lemma clean_append_before (h : ∀ c ∈ gap, isLow c = true) (s : List Char) :
    clean (gap ++ s) = clean s := by
  change kept (dropEndWhile isLow ((gap ++ s).dropWhile isLow)) = _
  rw [List.dropWhile_append_of_pos h]
  rfl

/-- Blanks in ASCII behind an address are dropped. -/
lemma clean_append_behind (h : ∀ c ∈ gap, isLow c = true) (s : List Char) :
    clean (s ++ gap) = clean s := by
  change kept (dropEndWhile isLow ((s ++ gap).dropWhile isLow)) =
    kept (dropEndWhile isLow (s.dropWhile isLow))
  rw [List.dropWhile_append]
  split_ifs with hnone
  · rw [List.isEmpty_iff.mp hnone, List.dropWhile_eq_nil_iff.mpr h]
  · rw [dropEndWhile, dropEndWhile, List.reverse_append,
      List.dropWhile_append_of_pos (by simpa using h)]

/-- Blanks that are not all dropped stay behind what is kept of the rest, up to the last of them
that is not dropped. -/
lemma exists_clean_append_high (h : ∃ c ∈ gap, isLow c = false) (s : List Char) :
    ∃ more, ∃ c ∈ gap, isLow c = false ∧ clean (s ++ gap) = clean s ++ more ++ [c] := by
  obtain ⟨front, c, behind, rfl, hc, hbehind⟩ := exists_last_of_not isLow h
  obtain ⟨more, hmore⟩ : clean s <+: kept ((s ++ front).dropWhile isLow) := by
    have hself := clean_prefix s
    refine hself.trans (List.IsPrefix.filter _ ?_)
    rw [List.dropWhile_append]
    split_ifs with hnone
    · rw [List.isEmpty_iff.mp hnone]
      exact List.nil_prefix
    · exact List.prefix_append _ _
  have hnil : dropEndWhile isLow behind = [] := by
    rw [dropEndWhile, List.dropWhile_eq_nil_iff.mpr (by simpa using hbehind), List.reverse_nil]
  refine ⟨more, c, by simp, hc, ?_⟩
  rw [hmore, ← List.append_assoc, clean_append_cons hc, hnil]
  rfl

/-- An address starts with a letter. -/
lemma parse?_of_start (hgap : ∀ d ∈ gap, isLow d = true) (hc : isLow c = false)
    (hletter : c.isAlpha = false) (s : List Char) :
    parse? (String.ofList (gap ++ c :: s)) = none := by
  have hclean : clean (gap ++ c :: s) = c :: kept (dropEndWhile isLow s) := by
    rw [clean_append_cons hc, List.dropWhile_eq_nil_iff.mpr hgap]
    rfl
  rw [parse?, String.toList_ofList, hclean]
  cases hsplit : splitScheme? (c :: kept (dropEndWhile isLow s)) with
  | none => rfl
  | some p =>
      obtain ⟨letters, ⟨⟨d, rest, rfl, hd⟩, -⟩, heq, -⟩ := exists_isScheme hsplit
      obtain ⟨rfl, -⟩ := List.cons.inj heq
      rw [hd] at hletter
      cases hletter

/-- **A blank that is not dropped hides the address behind it.** -/
lemma parse?_of_high_before (hblank : ∀ c ∈ gap, isBlank c = true)
    (h : ∃ c ∈ gap, isLow c = false) (s : List Char) :
    parse? (String.ofList (gap ++ s)) = none := by
  obtain ⟨front, c, behind, rfl, hc, hfront⟩ := exists_first_of_not isLow h
  have hletter := (Source.not_of_isBlank (hblank c (by simp))).2.2
  rw [List.append_assoc, List.cons_append]
  exact parse?_of_start hfront hc hletter _

/-- Texts of which the same is kept are the same address. -/
lemma parse?_congr (h : clean a.toList = clean b.toList) : parse? a = parse? b := by
  rw [parse?, parse?, h]

/-- What is kept was there. -/
lemma mem_of_mem_clean (h : c ∈ clean s) : c ∈ s := by
  have hself := clean_prefix s
  exact (List.dropWhile_suffix _).subset (List.mem_of_mem_filter (hself.subset h))

/-- Only what is low is dropped. -/
lemma mem_clean (hc : isLow c = false) (h : c ∈ s) : c ∈ clean s := by
  obtain ⟨front, behind, rfl⟩ := List.append_of_mem h
  rw [clean_append_cons hc]
  simp

/-! ### In front of a query or a fragment -/

/-- Host and path. -/
def trunk (u : Url) : Option Host × Path := (u.host, u.path)

/-- A question mark or a number sign ends the path. -/
lemma endsPath_iff : endsPath c = true ↔ c = '?' ∨ c = '#' := by
  simp [endsPath]

/-- What ends a path ends what is in front of it, too. -/
lemma endsAuthority_of_endsPath (hc : endsPath c = true) (special : Bool) :
    endsAuthority special c = true := by
  rcases endsPath_iff.mp hc with rfl | rfl <;> simp [endsAuthority]

/-- The path does not go beyond the first sign of a query or a fragment. -/
lemma takeWhile_path (hc : endsPath c = true) (x y : List Char) :
    (x ++ c :: y).takeWhile (!endsPath ·) = x.takeWhile (!endsPath ·) :=
  takeWhile_append_cons _ (by rw [hc]; rfl) x y

/-- What follows the sign of a query or a fragment changes neither host nor path of an address with
a host. -/
lemma afterSlashes?_trunk (hc : endsPath c = true) (scheme : String) (x y z : List Char) :
    (afterSlashes? scheme (x ++ c :: y)).map trunk =
      (afterSlashes? scheme (x ++ c :: z)).map trunk := by
  obtain ⟨front, -, hfront⟩ := afterSlashes?_append_end scheme (endsAuthority_of_endsPath hc _) x
  rw [hfront y, hfront z]
  cases afterSlashes? scheme (x ++ [c]) with
  | none => rfl
  | some u => simp only [Option.map_some, trunk, ending, takeWhile_path hc]

/-- The host of a file URL, as it is written, and what follows it. -/
def fileParts : List Char → List Char × List Char
  | a :: b :: rest =>
    if isSlash true a && isSlash true b then
      let area := rest.takeWhile (!endsAuthority true ·)
      if isDrive (String.ofList (area.map fun c => if c == '|' then ':' else c)) then ([], rest)
      else (area, rest.dropWhile (!endsAuthority true ·))
    else ([], a :: b :: rest)
  | s => ([], s)

/-- The file URL with this path; a drive stands for the machine itself. -/
def fileOf (host : Option Host) (path : Path) (tail : Option String × Option String) : Url :=
  let host := match path with
    | .segments (first :: _) => if isDrive first then none else host
    | _ => host
  ⟨"file", true, "", none, host, none, path, tail.1, tail.2⟩

/-- A file URL is made of its host, its path, and its query and fragment. -/
lemma fileUrl?_eq (s : List Char) :
    fileUrl? s = (fileHost? (fileParts s).1).map fun host =>
      fileOf host (filePath ((fileParts s).2.takeWhile (!endsPath ·)))
        (tailOf true ((fileParts s).2.dropWhile (!endsPath ·))) := by
  rw [Option.map_eq_bind]
  match s with
  | [] => rfl
  | [a] => rfl
  | a :: b :: rest =>
    unfold fileUrl? fileParts
    simp only
    split_ifs
    · rfl
    · rfl
    · rfl

/-- What follows the sign of a query or a fragment is not in front of the path. -/
lemma fileParts_append_cons (hc : endsPath c = true) (x : List Char) :
    ∃ area rest, ∀ y, fileParts (x ++ c :: y) = (area, rest ++ c :: y) := by
  have hnot : isSlash true c = false := by rcases endsPath_iff.mp hc with rfl | rfl <;> rfl
  have hends : (!endsAuthority true c) = false := by rw [endsAuthority_of_endsPath hc]; rfl
  match x with
  | [] => exact ⟨[], [], fun y => by cases y <;> simp [fileParts, hnot]⟩
  | [a] => exact ⟨[], [a], fun y => by simp [fileParts, hnot]⟩
  | a :: b :: rest =>
    have harea := takeWhile_append_cons (!endsAuthority true ·) hends rest
    have hrest := dropWhile_append_cons (!endsAuthority true ·) hends rest
    simp only [List.cons_append, fileParts, harea, hrest]
    split_ifs
    · exact ⟨[], rest, fun y => rfl⟩
    · exact ⟨_, _, fun y => rfl⟩
    · exact ⟨[], a :: b :: rest, fun y => rfl⟩

/-- What follows the sign of a query or a fragment changes neither host nor path of a file URL. -/
lemma fileUrl?_trunk (hc : endsPath c = true) (x y z : List Char) :
    (fileUrl? (x ++ c :: y)).map trunk = (fileUrl? (x ++ c :: z)).map trunk := by
  obtain ⟨area, rest, hparts⟩ := fileParts_append_cons hc x
  rw [fileUrl?_eq, fileUrl?_eq, hparts y, hparts z, Option.map_map, Option.map_map]
  simp only [takeWhile_path hc]
  rfl

/-- What follows the colon of a scheme that is not special. -/
def plainUrl? (scheme : String) : List Char → Option Url
  | '/' :: '/' :: after => afterSlashes? scheme after
  | '/' :: after =>
    some (withoutAuthority scheme
      (pathAfterAuthority false ('/' :: after.takeWhile (!endsPath ·)))
      (after.dropWhile (!endsPath ·)))
  | text =>
    some (withoutAuthority scheme
      (.opaqueText (String.ofList (encode isControl (text.takeWhile (!endsPath ·)))))
      (text.dropWhile (!endsPath ·)))

/-- Behind the colon of another scheme stands a path. -/
lemma plainUrl?_path (scheme : String) (h : s.head? ≠ some '/') :
    plainUrl? scheme ('/' :: s) = some (withoutAuthority scheme
      (pathAfterAuthority false ('/' :: s.takeWhile (!endsPath ·))) (s.dropWhile (!endsPath ·))) := by
  rw [plainUrl?.eq_2]
  rintro after rfl
  exact h rfl

/-- Behind the colon of another scheme may stand a text that is no path. -/
lemma plainUrl?_text (scheme : String) (h : s.head? ≠ some '/') :
    plainUrl? scheme s = some (withoutAuthority scheme
      (.opaqueText (String.ofList (encode isControl (s.takeWhile (!endsPath ·)))))
      (s.dropWhile (!endsPath ·))) := by
  rw [plainUrl?.eq_3]
  · rintro after rfl
    exact h rfl
  · rintro after rfl
    exact h rfl

/-- What follows the sign of a query or a fragment changes neither host nor path behind another
scheme. -/
lemma plainUrl?_trunk (hc : endsPath c = true) (scheme : String) (x y z : List Char) :
    (plainUrl? scheme (x ++ c :: y)).map trunk = (plainUrl? scheme (x ++ c :: z)).map trunk := by
  have hne : c ≠ '/' := by rcases endsPath_iff.mp hc with rfl | rfl <;> decide
  have hstart : ∀ s : List Char, s.head? ≠ some '/' → ∀ y, (s ++ c :: y).head? ≠ some '/' := by
    intro s hs y
    cases s with
    | nil => simpa using hne
    | cons d rest => exact hs
  by_cases hx : x.head? = some '/'
  · obtain ⟨rest, rfl⟩ := List.head?_eq_some_iff.mp hx
    by_cases hrest : rest.head? = some '/'
    · obtain ⟨after, rfl⟩ := List.head?_eq_some_iff.mp hrest
      exact afterSlashes?_trunk hc scheme after y z
    · rw [List.cons_append, List.cons_append, plainUrl?_path scheme (hstart rest hrest y),
        plainUrl?_path scheme (hstart rest hrest z), takeWhile_path hc, takeWhile_path hc]
      rfl
  · rw [plainUrl?_text scheme (hstart x hx y), plainUrl?_text scheme (hstart x hx z),
      takeWhile_path hc, takeWhile_path hc]
    rfl

/-- **Host and path do not depend on what follows the start of the query or of the fragment.** -/
lemma parse?_trunk (hc : endsPath c = true) (ha : clean a.toList = x ++ c :: y)
    (hb : clean b.toList = x ++ c :: z) : (parse? a).map trunk = (parse? b).map trunk := by
  have hscheme : inScheme c = false ∧ c ≠ ':' := by
    rcases endsPath_iff.mp hc with rfl | rfl <;> decide
  cases hsplit : splitScheme? x with
  | none =>
      have hnone := splitScheme?_append_cons hscheme.1 hscheme.2 hsplit
      rw [parse?, parse?, ha, hb, hnone y, hnone z]
  | some p =>
      obtain ⟨scheme, rest⟩ := p
      rw [parse?, parse?, ha, hb, splitScheme?_append hsplit, splitScheme?_append hsplit]
      simp only [Option.bind_eq_bind, Option.bind_some]
      split_ifs
      · exact fileUrl?_trunk hc rest y z
      · have hslash : isSlash true c = false := by rcases endsPath_iff.mp hc with rfl | rfl <;> rfl
        rw [dropWhile_append_cons _ hslash, dropWhile_append_cons _ hslash]
        exact afterSlashes?_trunk hc scheme _ y z
      · exact plainUrl?_trunk hc scheme rest y z

/-! ### Behind a host or a path -/

/-- The blanks that are not dropped at the ends of an address. -/
def highBlanks : List Char :=
  ([0x85, 0xA0, 0x1680, 0x2028, 0x2029, 0x202F, 0x205F, 0x3000] ++ List.range' 0x2000 11).map
    Char.ofNat

/-- A blank that is not dropped is one of those listed. -/
lemma mem_highBlanks (hblank : isBlank c = true) (hhigh : isLow c = false) : c ∈ highBlanks := by
  refine List.mem_map.mpr ⟨c.toNat, ?_, Char.ofNat_toNat c⟩
  simp only [isBlank, isLow, Bool.or_eq_true, Bool.and_eq_true, decide_eq_true_eq, beq_iff_eq,
    decide_eq_false_iff_not] at hblank hhigh
  simp only [List.mem_append, List.mem_cons, List.not_mem_nil, or_false, List.mem_range'_1]
  omega

/-- An encoded blank is the end of a segment that stands for itself. -/
structure IsMark (t : List Char) : Prop where
  ending : CodeReview.Path.IsEnding t
  start : t.head? = some '%'
  room : 6 ≤ t.length
  own : isOwn (String.ofList t) = true

/-- Every blank that is not dropped is encoded as a mark. -/
lemma isMark_of_mem (h : c ∈ highBlanks) : IsMark (encodeChar inPathSet c) := by
  have hall : (highBlanks.all fun c =>
      let t := encodeChar inPathSet c
      t.all (fun d => !(d == '/') && !(d == '.')) && t.head? == some '%' && decide (6 ≤ t.length) &&
        isOwn (String.ofList t)) = true := by decide +kernel
  have hc := List.all_eq_true.mp hall c h
  simp only [Bool.and_eq_true, List.all_eq_true, Bool.not_eq_true', beq_iff_eq,
    decide_eq_true_eq] at hc
  obtain ⟨⟨⟨hchars, hstart⟩, hroom⟩, hown⟩ := hc
  have hne : encodeChar inPathSet c ≠ [] := by
    rintro hnil
    rw [hnil] at hstart
    cases hstart
  exact ⟨⟨hne, fun d hd => (hchars d hd).1, fun d hd => (hchars d hd).2⟩, hstart, hroom, hown⟩

/-- No blank that is not dropped is a slash or starts a query or a fragment. -/
lemma not_stop_of_mem (h : c ∈ highBlanks) :
    isSlash true c = false ∧ isSlash false c = false ∧ endsPath c = false := by
  have hall : (highBlanks.all fun c =>
      !isSlash true c && !isSlash false c && !endsPath c) = true := by decide
  have hc := List.all_eq_true.mp hall c h
  simpa [and_assoc] using hc

/-- The last of these segments ends in this text. -/
def EndsIn (t : List Char) (parts : List String) : Prop :=
  ∃ before w, parts = before ++ [String.ofList (w ++ t)]

section EndsIn

variable {t : List Char} {parts : List String}

/-- A segment that ends in a mark stands for itself. -/
lemma IsMark.isOwn_append (ht : IsMark t) (w : List Char) :
    isOwn (String.ofList (w ++ t)) = true := by
  cases w with
  | nil => exact ht.own
  | cons c rest =>
      have hroom := ht.room
      refine isOwn_of_length ?_
      simp only [String.toList_ofList, List.cons_append, List.length_cons, List.length_append]
      omega

/-- A mark at the end stays when dots are resolved. -/
lemma EndsIn.resolveDots (ht : IsMark t) (h : EndsIn t parts) (file : Bool) :
    EndsIn t (resolveDots file [] parts) := by
  obtain ⟨before, w, rfl⟩ := h
  obtain ⟨kept, hkept⟩ := resolveDots_append file before []
  exact ⟨kept, w, hkept _ (by simp) (by simpa using ht.isOwn_append w)⟩

/-- A mark at the end stays when a drive is split off. -/
lemma EndsIn.splitDrive (ht : IsMark t) (h : EndsIn t parts) : EndsIn t (splitDrive parts) := by
  obtain ⟨before, w, rfl⟩ := h
  cases before with
  | cons s rest =>
      have hfront : ∃ front, splitDrive (s :: (rest ++ [String.ofList (w ++ t)])) =
          front ++ (rest ++ [String.ofList (w ++ t)]) := by
        rw [splitDrive.eq_2]
        split
        · split_ifs
          · exact ⟨[_], rfl⟩
          · exact ⟨[_], rfl⟩
        · split_ifs
          · exact ⟨[_, _], rfl⟩
          · exact ⟨[_], rfl⟩
        · exact ⟨[_], rfl⟩
      obtain ⟨front, hfront⟩ := hfront
      exact ⟨front ++ rest, w, by rw [List.cons_append, hfront, List.append_assoc]⟩
  | nil =>
      have hroom := ht.room
      rw [List.nil_append, splitDrive.eq_2, String.toList_ofList]
      split
      · next c heq =>
        have hlength := congrArg List.length heq
        simp only [List.length_append, List.length_cons, List.length_nil] at hlength
        omega
      · next c d more heq =>
        split_ifs with hletter
        · -- the mark starts neither at the letter of the drive nor at its colon
          match w with
          | [] =>
            have hstart := ht.start
            rw [← List.nil_append t, heq] at hstart
            obtain rfl := Option.some.inj hstart
            cases hletter
          | [e] =>
            have hstart := ht.start
            have htail : t = ':' :: d :: more := (List.cons.inj heq).2
            rw [htail] at hstart
            cases hstart
          | e :: e' :: w =>
            have htail : w ++ t = d :: more := (List.cons.inj (List.cons.inj heq).2).2
            exact ⟨[String.ofList [c, ':']], w, by rw [htail]; rfl⟩
        · exact ⟨[], w, rfl⟩
      · exact ⟨[], w, rfl⟩

/-- A character that is no slash is at the end of the last segment, encoded. -/
lemma segmentsOf_endsIn {special : Bool} (hc : isSlash special c = false) (s : List Char) :
    EndsIn (encodeChar inPathSet c) (segmentsOf special (s ++ [c])) := by
  obtain ⟨front, hfront⟩ := List.getLast?_eq_some_iff.mp
    (getLast?_splitOn (isSlash special) (s ++ [c]))
  rw [segmentsOf, hfront, List.map_append, lastPart_append_of_none (by simpa using hc)]
  refine ⟨front.map fun part => String.ofList (encode inPathSet part),
    encode inPathSet (lastPart (isSlash special) s), ?_⟩
  rw [List.map_singleton, encode_append]
  simp [encode]

/-- Text of a path whose last segment ends in an encoded blank. -/
lemma EndsIn.text (h : EndsIn t parts) : ∃ x, (Path.segments parts).text = String.ofList (x ++ t) := by
  obtain ⟨before, w, rfl⟩ := h
  refine ⟨(Path.segments before).text.toList ++ '/' :: w, ?_⟩
  rw [← String.toList_inj]
  simp [Path.text, String.toList_append]

/-- Blanks that are not dropped are no slashes. -/
lemma isSlash_of_mem (hc : c ∈ highBlanks) (special : Bool) : isSlash special c = false := by
  cases special
  · exact (not_stop_of_mem hc).2.1
  · exact (not_stop_of_mem hc).1

/-- A blank that is not dropped is at the end of the path, encoded. -/
lemma exists_text_pathAfterAuthority (hc : c ∈ highBlanks) (special : Bool) (s : List Char) :
    ∃ x, (pathAfterAuthority special (s ++ [c])).text =
      String.ofList (x ++ encodeChar inPathSet c) := by
  have hslash := isSlash_of_mem hc special
  obtain ⟨s', hs'⟩ : ∃ s', pathAfterAuthority special (s ++ [c]) =
      .segments (resolveDots false [] (segmentsOf special (s' ++ [c]))) := by
    cases s with
    | nil => exact ⟨[], by simp [pathAfterAuthority, hslash]⟩
    | cons d rest =>
        by_cases hd : isSlash special d = true
        · exact ⟨rest, by simp [pathAfterAuthority, hd]⟩
        · exact ⟨d :: rest, by simp [pathAfterAuthority, hd]⟩
  rw [hs']
  exact ((segmentsOf_endsIn hslash s').resolveDots (isMark_of_mem hc) false).text

/-- A mark at the end stays when empty segments are dropped in front. -/
lemma EndsIn.dropWhile (ht : IsMark t) (h : EndsIn t parts) :
    EndsIn t (parts.dropWhile (· == "")) := by
  obtain ⟨before, w, rfl⟩ := h
  have hne : (String.ofList (w ++ t) == "") = false := by simp [ht.ending.ne_nil]
  exact ⟨_, w, dropWhile_append_cons (· == "") hne before []⟩

/-- Where something is at the end, there are segments. -/
lemma EndsIn.ne_nil (h : EndsIn t parts) : parts ≠ [] := by
  obtain ⟨before, w, rfl⟩ := h
  simp

/-- A blank that is not dropped is at the end of the path of a file URL, encoded. -/
lemma exists_text_filePath (hc : c ∈ highBlanks) (s : List Char) :
    ∃ x, (filePath (s ++ [c])).text = String.ofList (x ++ encodeChar inPathSet c) := by
  have hslash := isSlash_of_mem hc true
  have hmark := isMark_of_mem hc
  have hends (s' : List Char) :=
    (((segmentsOf_endsIn hslash s').splitDrive hmark).resolveDots hmark true).dropWhile hmark
  unfold filePath
  cases s with
  | nil =>
      simp only [List.nil_append, hslash, Bool.false_eq_true, if_false]
      split
      · next hnil => exact absurd hnil (hends []).ne_nil
      · exact (hends []).text
  | cons d rest =>
      by_cases hd : isSlash true d = true
      · simp only [List.cons_append, hd, if_true]
        split
        · next hnil => exact absurd hnil (hends rest).ne_nil
        · exact (hends rest).text
      · simp only [List.cons_append, hd, Bool.false_eq_true, if_false]
        split
        · next hnil => exact absurd hnil (hends (d :: rest)).ne_nil
        · exact (hends (d :: rest)).text

end EndsIn

/-- The path of an address is what is left behind its authority, up to the query. -/
lemma afterSlashes?_path {scheme : String} {u : Url} (h : afterSlashes? scheme s = some u) :
    ∃ rest, rest <:+ s ∧
      u.path = pathAfterAuthority (isSpecial scheme) (rest.takeWhile (!endsPath ·)) := by
  generalize harea : s.takeWhile (fun c => !endsAuthority (isSpecial scheme) c) = area
  generalize hrest : s.dropWhile (fun c => !endsAuthority (isSpecial scheme) c) = rest
  generalize hport : ((splitHost false (splitUser area).2).2.drop 1).span (fun c => !(c == '\\')) =
    port
  refine ⟨port.2 ++ rest, ?_, ?_⟩
  · have hsuffix : port.2 <:+ area := by
      rw [← hport, List.span_eq_takeWhile_dropWhile]
      exact (List.dropWhile_suffix _).trans ((List.drop_suffix _ _).trans
        ((splitHost_suffix _ _).trans (splitUser_suffix area)))
    obtain ⟨front, hfront⟩ := hsuffix
    refine ⟨front, ?_⟩
    rw [← List.append_assoc, hfront, ← harea, ← hrest, List.takeWhile_append_dropWhile]
  · unfold afterSlashes? at h
    simp only [harea, hrest, hport, Option.bind_eq_bind, Option.bind_none] at h
    generalize splitHost false (splitUser area).2 = host at h
    generalize splitUser area = user at h
    generalize credentialsOf (user.1.getD []) = credentials at h
    split_ifs at h
    all_goals
      obtain ⟨found, -, hu⟩ := Option.bind_eq_some_iff.mp h
      obtain ⟨digits, -, hu⟩ := Option.bind_eq_some_iff.mp hu
      exact Option.some.inj hu ▸ rfl

/-- The path of a file URL and what follows it are an end of the text. -/
lemma fileParts_suffix (s : List Char) : (fileParts s).2 <:+ s := by
  match s with
  | [] => exact List.suffix_rfl
  | [a] => exact List.suffix_rfl
  | a :: b :: rest =>
    have hrest : rest <:+ a :: b :: rest := (List.suffix_cons b rest).trans (List.suffix_cons a _)
    unfold fileParts
    dsimp only
    split_ifs
    · exact hrest
    · exact (List.dropWhile_suffix _).trans hrest
    · exact List.suffix_rfl

/-- The path of an address with a host is read from the end of the address. -/
lemma exists_path_of_parse? {scheme : String} {u : Url} {rest : List Char}
    (hsplit : splitScheme? (clean a.toList) = some (scheme, rest)) (hu : parse? a = some u)
    (hhost : u.host.isSome = true) :
    ∃ behind, behind <:+ rest ∧ (u.path = filePath (behind.takeWhile (!endsPath ·)) ∨
      ∃ special, u.path = pathAfterAuthority special (behind.takeWhile (!endsPath ·))) := by
  rw [parse?, hsplit] at hu
  simp only [Option.bind_eq_bind, Option.bind_some] at hu
  split_ifs at hu
  · rw [fileUrl?_eq] at hu
    obtain ⟨host, -, rfl⟩ := Option.map_eq_some_iff.mp hu
    exact ⟨_, fileParts_suffix rest, .inl rfl⟩
  · obtain ⟨behind, hbehind, hpath⟩ := afterSlashes?_path hu
    exact ⟨behind, hbehind.trans (List.dropWhile_suffix _), .inr ⟨_, hpath⟩⟩
  · change plainUrl? scheme rest = some u at hu
    unfold plainUrl? at hu
    split at hu
    · next after =>
      obtain ⟨behind, hbehind, hpath⟩ := afterSlashes?_path hu
      exact ⟨behind, hbehind.trans ⟨['/', '/'], rfl⟩, .inr ⟨_, hpath⟩⟩
    · obtain rfl := Option.some.inj hu
      cases hhost
    · obtain rfl := Option.some.inj hu
      cases hhost

/-- **The path of an address that ends in a blank that is not dropped, with neither query nor
fragment in front of the blank, has no language.** -/
lemma languageOfPath?_of_high_behind {u : Url} (hclean : clean a.toList = s ++ [c])
    (hblank : isBlank c = true) (hhigh : isLow c = false) (hs : ∀ d ∈ s, endsPath d = false)
    (hu : parse? a = some u) (hhost : u.host.isSome = true) :
    Source.languageOfPath? u.path.text = none := by
  have hc := mem_highBlanks hblank hhigh
  have hmark := (isMark_of_mem hc).ending
  have hlanguage (x : List Char) :
      Source.languageOfPath? (String.ofList (x ++ encodeChar inPathSet c)) = none := by
    refine Source.languageOfPath?_of_ending hmark ⟨'%', ?_, rfl⟩ x
    exact List.mem_of_mem_head? (isMark_of_mem hc).start
  cases hsplit : splitScheme? (clean a.toList) with
  | none =>
      rw [parse?, hsplit] at hu
      cases hu
  | some p =>
      obtain ⟨scheme, rest⟩ := p
      obtain ⟨behind, hbehind, hpath⟩ := exists_path_of_parse? hsplit hu hhost
      obtain ⟨letters, -, heq, -⟩ := exists_isScheme hsplit
      have hsuffix : behind <:+ s ++ [c] := by
        rw [← hclean, heq]
        exact hbehind.trans ⟨letters ++ [':'], by simp⟩
      have hwhole : behind.takeWhile (!endsPath ·) = behind := by
        rw [List.takeWhile_eq_self_iff]
        intro d hd
        have hend := (not_stop_of_mem hc).2.2
        have hmem := hsuffix.subset hd
        rw [List.mem_append, List.mem_singleton] at hmem
        rcases hmem with hmem | rfl
        · simp [hs d hmem]
        · simp [hend]
      rw [hwhole] at hpath
      -- nothing is left for a path, or the blank is at its end
      obtain rfl | ⟨front, rfl, -⟩ := List.suffix_concat_iff.mp hsuffix
      · rcases hpath with hpath | ⟨special, hpath⟩
        · rw [hpath]
          decide
        · rw [hpath]
          cases special <;> decide
      · rcases hpath with hpath | ⟨special, hpath⟩
        · obtain ⟨x, hx⟩ := exists_text_filePath hc front
          rw [hpath, hx, hlanguage]
        · obtain ⟨x, hx⟩ := exists_text_pathAfterAuthority hc special front
          rw [hpath, hx, hlanguage]

end CodeReview.Url

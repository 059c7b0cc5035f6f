import CodeReview.Delivery
import CodeReview.Proofs.Text.Cut

/-!
# The names of generated files

The name of a generated file is made of three things: the stem of the locator, the operation, and
the local time to the second.  Each of them can be read from the name (`Delivery.fileName_inj`), so
that two names are the same only where all three are.  A name is one part of a path, and what stands
below a directory under it is a file of that directory (`Path.parts_join`).
-/

namespace CodeReview

open CodeReview.Text

/-! ### Local time -/

/-- A number in decimal digits, with zeros in front up to this width. -/
def Text.padded (width n : ℕ) : List Char :=
  List.replicate (width - (Nat.toDigits 10 n).length) '0' ++ Nat.toDigits 10 n

/-- Date and time of day, to the second. -/
structure LocalTime where
  year : ℤ
  month : ℕ
  day : ℕ
  hour : ℕ
  minute : ℕ
  /-- In a leap second this is 60. -/
  second : ℕ
  month_le : month ≤ 12
  day_le : day ≤ 31
  hour_lt : hour < 24
  minute_lt : minute < 60
  second_le : second ≤ 60

namespace LocalTime

/-- The sign of a year. -/
def yearSign (year : ℤ) : Char := if year < 0 then '-' else '+'

/-- The digits of a year; a year that takes more than four of them, or is negative, has a sign. -/
def yearChars (year : ℤ) : List Char :=
  if 0 ≤ year ∧ year ≤ 9999 then padded 4 year.toNat else yearSign year :: padded 4 year.natAbs

/-- Year, month and day. -/
def dateChars (t : LocalTime) : List Char :=
  yearChars t.year ++ padded 2 t.month ++ padded 2 t.day

/-- Hour, minute and second. -/
def clockChars (t : LocalTime) : List Char :=
  padded 2 t.hour ++ padded 2 t.minute ++ padded 2 t.second

/-- The time as it stands in the names of generated files. -/
def stamp (t : LocalTime) : String := String.ofList (t.dateChars ++ '_' :: t.clockChars)

end LocalTime

namespace Text

variable {width n n' : ℕ} {c : Char}

/-- A padded number is read back. -/
lemma ofDigitChars_padded (width n : ℕ) : Nat.ofDigitChars 10 (padded width n) 0 = n := by
  rw [padded, Nat.ofDigitChars_append, Nat.ofDigitChars_replicate_zero, Nat.mul_zero,
    Nat.ofDigitChars_ten_toDigits]

/-- A number is told by its padded digits. -/
lemma padded_inj (h : padded width n = padded width n') : n = n' := by
  rw [← ofDigitChars_padded width n, h, ofDigitChars_padded]

/-- A number that fits the width has exactly as many digits as the width says. -/
lemma length_padded (h : n < 10 ^ width) (hwidth : 0 < width) : (padded width n).length = width := by
  have hle := (Nat.length_toDigits_le_iff (by decide) hwidth).mpr h
  rw [padded, List.length_append, List.length_replicate]
  omega

/-- Padded numbers have digits only. -/
lemma isDigit_of_mem_padded (h : c ∈ padded width n) : c.isDigit = true := by
  rcases List.mem_append.mp h with hzero | hdigit
  · rw [List.eq_of_mem_replicate hzero]
    rfl
  · exact Nat.isDigit_of_mem_toDigits (by decide) (by decide) hdigit

end Text

namespace LocalTime

variable {t t' : LocalTime} {c : Char}

/-- The sign of a year is not a digit. -/
lemma isDigit_yearSign (y : ℤ) : (yearSign y).isDigit = false := by
  unfold yearSign
  split_ifs <;> rfl

/-- A year without a sign is not one with a sign. -/
lemma padded_ne_signed {width n : ℕ} (y : ℤ) (rest : List Char) :
    padded width n ≠ yearSign y :: rest := by
  intro h
  have hdigit := isDigit_of_mem_padded (h ▸ List.mem_cons_self : yearSign y ∈ padded width n)
  rw [isDigit_yearSign] at hdigit
  cases hdigit

/-- A year can be read from its digits. -/
lemma yearChars_inj {y y' : ℤ} (h : yearChars y = yearChars y') : y = y' := by
  unfold yearChars at h
  split_ifs at h with hy hy' hy'
  · have heq := padded_inj h
    omega
  · exact absurd h (padded_ne_signed _ _)
  · exact absurd h.symm (padded_ne_signed _ _)
  · obtain ⟨hsign, hdigits⟩ := List.cons.inj h
    have heq := padded_inj hdigits
    unfold yearSign at hsign
    split_ifs at hsign <;> simp at hsign <;> omega

/-- Two numbers of two digits can be read from the end of a row. -/
lemma append_two_inj {front front' : List Char} {a a' b b' : ℕ} (ha : a < 100) (ha' : a' < 100)
    (hb : b < 100) (hb' : b' < 100)
    (h : front ++ padded 2 a ++ padded 2 b = front' ++ padded 2 a' ++ padded 2 b') :
    front = front' ∧ a = a' ∧ b = b' := by
  have hlength (n n' : ℕ) (hn : n < 100) (hn' : n' < 100) :
      (padded 2 n).length = (padded 2 n').length := by
    rw [length_padded hn (by decide), length_padded hn' (by decide)]
  obtain ⟨h, hlast⟩ := List.append_inj' h (hlength b b' hb hb')
  obtain ⟨hfront, hfirst⟩ := List.append_inj' h (hlength a a' ha ha')
  exact ⟨hfront, padded_inj hfirst, padded_inj hlast⟩

/-- Year, month and day are told by their characters. -/
lemma dateChars_inj (h : t.dateChars = t'.dateChars) :
    t.year = t'.year ∧ t.month = t'.month ∧ t.day = t'.day := by
  have hm := t.month_le
  have hm' := t'.month_le
  have hd := t.day_le
  have hd' := t'.day_le
  obtain ⟨hyear, hmonth, hday⟩ :=
    append_two_inj (by omega) (by omega) (by omega) (by omega) h
  exact ⟨yearChars_inj hyear, hmonth, hday⟩

/-- Hour, minute and second are told by their characters. -/
lemma clockChars_inj (h : t.clockChars = t'.clockChars) :
    t.hour = t'.hour ∧ t.minute = t'.minute ∧ t.second = t'.second := by
  have hm := t.minute_lt
  have hm' := t'.minute_lt
  have hs := t.second_le
  have hs' := t'.second_le
  obtain ⟨hhour, hminute, hsecond⟩ :=
    append_two_inj (by omega) (by omega) (by omega) (by omega) h
  exact ⟨padded_inj hhour, hminute, hsecond⟩

/-- A date has digits only, apart from the sign of the year. -/
lemma mem_dateChars (h : c ∈ t.dateChars) : c.isDigit = true ∨ c = yearSign t.year := by
  rcases List.mem_append.mp h with h | hday
  · rcases List.mem_append.mp h with hyear | hmonth
    · unfold yearChars at hyear
      split_ifs at hyear
      · exact .inl (isDigit_of_mem_padded hyear)
      · rcases List.mem_cons.mp hyear with hsign | hdigit
        · exact .inr hsign
        · exact .inl (isDigit_of_mem_padded hdigit)
    · exact .inl (isDigit_of_mem_padded hmonth)
  · exact .inl (isDigit_of_mem_padded hday)

/-- A time of day has digits only. -/
lemma mem_clockChars (h : c ∈ t.clockChars) : c.isDigit = true := by
  rcases List.mem_append.mp h with h | hsecond
  · rcases List.mem_append.mp h with hhour | hminute
    · exact isDigit_of_mem_padded hhour
    · exact isDigit_of_mem_padded hminute
  · exact isDigit_of_mem_padded hsecond

/-- A date has no characters but digits and signs. -/
lemma not_mem_dateChars (hdigit : c.isDigit = false) (hminus : c ≠ '-') (hplus : c ≠ '+') :
    c ∉ t.dateChars := by
  intro h
  rcases mem_dateChars h with hc | hsign
  · rw [hdigit] at hc
    cases hc
  · unfold yearSign at hsign
    split_ifs at hsign
    · exact hminus hsign
    · exact hplus hsign

/-- A date has no underscore. -/
lemma underscore_not_mem_dateChars (t : LocalTime) : '_' ∉ t.dateChars :=
  not_mem_dateChars rfl (by decide) (by decide)

/-- A time of day has no underscore. -/
lemma underscore_not_mem_clockChars (t : LocalTime) : '_' ∉ t.clockChars :=
  fun h => absurd (mem_clockChars h) (by decide)

/-- The characters of a stamp: the date, an underscore and the time of day. -/
lemma toList_stamp (t : LocalTime) : t.stamp.toList = t.dateChars ++ '_' :: t.clockChars :=
  String.toList_ofList

/-- There is no slash in a time. -/
lemma slash_not_mem_stamp (t : LocalTime) : '/' ∉ t.stamp.toList := by
  rw [toList_stamp, List.mem_append, List.mem_cons]
  rintro (hdate | hunderscore | hclock)
  · exact not_mem_dateChars rfl (by decide) (by decide) hdate
  · exact absurd hunderscore (by decide)
  · exact absurd (mem_clockChars hclock) (by decide)

/-- Date and time of day together are told by their characters. -/
lemma eq_of_chars (hdate : t.dateChars = t'.dateChars) (hclock : t.clockChars = t'.clockChars) :
    t = t' := by
  obtain ⟨hyear, hmonth, hday⟩ := dateChars_inj hdate
  obtain ⟨hhour, hminute, hsecond⟩ := clockChars_inj hclock
  cases t
  cases t'
  simp_all

end LocalTime

/-! ### Names -/

/-- What stands before and behind the last separator is told by the row. -/
lemma Text.append_separator_inj {α : Type} [DecidableEq α] {x x' y y' : List α} {c : α}
    (hy : c ∉ y) (hy' : c ∉ y') (h : x ++ c :: y = x' ++ c :: y') : x = x' ∧ y = y' := by
  have hlast (z : List α) (hz : c ∉ z) (w : List α) : lastPart (· == c) (w ++ c :: z) = z := by
    rw [lastPart_append_separator (by simp), lastPart_of_not_mem hz]
  have hsame : y = y' := by rw [← hlast y hy x, h, hlast y' hy' x']
  subst hsame
  exact ⟨List.append_cancel_right h, rfl⟩

/-- What is in a part is in the whole. -/
lemma Text.subset_of_mem_splitOn {α : Type} {sep : α → Bool} {s part : List α}
    (hpart : part ∈ splitOn sep s) : part ⊆ s := by
  induction s generalizing part with
  | nil => exact List.mem_singleton.mp hpart ▸ List.Subset.refl []
  | cons d rest ih =>
      rw [splitOn] at hpart
      split_ifs at hpart
      · rcases List.mem_cons.mp hpart with rfl | hpart
        · exact List.nil_subset _
        · exact List.subset_cons_of_subset d (ih hpart)
      · split at hpart
        case h_1 hnone => exact absurd hnone (splitOn_ne_nil sep rest)
        case h_2 first parts hsplit =>
          rcases List.mem_cons.mp hpart with rfl | hpart
          · exact List.cons_subset_cons d (ih (hsplit ▸ List.mem_cons_self))
          · exact List.subset_cons_of_subset d (ih (hsplit ▸ List.mem_cons_of_mem first hpart))

namespace Operation

/-- No operation has a name that ends, from an underscore on, in that of another one. -/
lemma eq_of_suffix {o o' : Operation} (h : '_' :: o.fileTag.toList <:+ '_' :: o'.fileTag.toList) :
    o = o' := by
  have hall : ∀ o ∈ all, ∀ o' ∈ all,
      '_' :: o.fileTag.toList <:+ '_' :: o'.fileTag.toList → o = o' := by decide
  exact hall o (by cases o <;> simp [all]) o' (by cases o' <;> simp [all]) h

end Operation

namespace Delivery

variable {locator locator' : String} {operation operation' : Operation} {t t' : LocalTime}

/-- The characters of a generated name: stem, tag of the operation, date and time of day, with
underscores between them, and the extension. -/
lemma toList_fileName (locator : String) (operation : Operation) (t : LocalTime) :
    (fileName locator operation t.stamp).toList = (stem locator).toList ++
      '_' :: (operation.fileTag.toList ++ '_' :: (t.dateChars ++ '_' :: t.clockChars)) ++
        ".txt".toList := by
  simp [fileName, String.toList_append, LocalTime.toList_stamp]

/-- **The name of a generated file tells the stem, the operation and the time.** -/
theorem fileName_inj (h : fileName locator operation t.stamp =
    fileName locator' operation' t'.stamp) :
    stem locator = stem locator' ∧ operation = operation' ∧ t = t' := by
  have hchars := congrArg String.toList h
  rw [toList_fileName, toList_fileName] at hchars
  have hfront := List.append_cancel_right hchars
  have hregroup (locator : String) (operation : Operation) (t : LocalTime) :
      (stem locator).toList ++
        '_' :: (operation.fileTag.toList ++ '_' :: (t.dateChars ++ '_' :: t.clockChars)) =
      ((stem locator).toList ++ '_' :: operation.fileTag.toList) ++ '_' :: t.dateChars ++
        '_' :: t.clockChars := by simp
  rw [hregroup, hregroup] at hfront
  obtain ⟨hfront, hclock⟩ := append_separator_inj t.underscore_not_mem_clockChars
    t'.underscore_not_mem_clockChars hfront
  obtain ⟨hfront, hdate⟩ := append_separator_inj t.underscore_not_mem_dateChars
    t'.underscore_not_mem_dateChars hfront
  have hoperation : operation = operation' := by
    have hsuffix := List.suffix_append (stem locator).toList ('_' :: operation.fileTag.toList)
    have hsuffix' := List.suffix_append (stem locator').toList ('_' :: operation'.fileTag.toList)
    rw [← hfront] at hsuffix'
    rcases List.suffix_or_suffix_of_suffix hsuffix hsuffix' with hends | hends
    · exact Operation.eq_of_suffix hends
    · exact (Operation.eq_of_suffix hends).symm
  subst hoperation
  have hstem := String.toList_inj.mp (List.append_cancel_right hfront)
  exact ⟨hstem, rfl, LocalTime.eq_of_chars hdate hclock⟩

end Delivery

/-! ### Files in a directory -/

namespace Path

variable {directory name : String}

/-- A text that can be the name of a file: it is one part of a path, and not of dots only. -/
structure IsName (name : String) : Prop where
  noSlash : '/' ∉ name.toList
  ne_nil : name.toList ≠ []
  ne_dot : name.toList ≠ ['.']
  ne_dots : name.toList ≠ ['.', '.']

/-- The name of a file is not the double dot. -/
lemma IsName.ne_dotdot (h : IsName name) : name ≠ ".." :=
  fun heq => h.ne_dots (heq ▸ by decide)

/-- A name stands below a directory behind a slash, which may be the directory's own. -/
lemma exists_toList_join (hname : IsName name) (hdirectory : directory ≠ "") :
    ∃ front, (join directory name).toList = front ++ '/' :: name.toList ∧
      (directory.toList = front ++ ['/'] ∨ directory.toList = front) := by
  have hrelative : isAbsolute name = false := by
    unfold isAbsolute
    cases hchars : name.toList with
    | nil => rfl
    | cons c rest =>
        have hc : c ≠ '/' := fun heq => hname.noSlash (hchars ▸ heq ▸ List.mem_cons_self)
        simpa using hc
  unfold join
  rw [hrelative]
  simp only [Bool.false_eq_true, if_false]
  by_cases hslash : directory.toList.getLast? = some '/'
  · obtain ⟨front, hfront⟩ := List.getLast?_eq_some_iff.mp hslash
    refine ⟨front, ?_, .inl hfront⟩
    simp [String.toList_append, hfront]
  · refine ⟨directory.toList, ?_, .inr rfl⟩
    simp [hdirectory, hslash, String.toList_append]

/-- The name of a file is one part of a path. -/
lemma splitOn_name (hname : IsName name) : splitOn (· == '/') name.toList = [name.toList] := by
  refine splitOn_of_none fun c hc => ?_
  exact beq_eq_false_iff_ne.mpr fun heq => hname.noSlash (heq ▸ hc)

/-- A name below a directory is one more part. -/
lemma parts_join (hname : IsName name) (hdirectory : directory ≠ "") :
    parts (join directory name) = parts directory ++ [name] := by
  obtain ⟨front, hjoin, hfront⟩ := exists_toList_join hname hdirectory
  have hparts : parts directory = ((splitOn (· == '/') front).filter fun p =>
      !(p == [] || p == ['.'])).map String.ofList := by
    unfold parts
    rcases hfront with hfront | hfront
    · rw [hfront, splitOn_append_separator (by simp), List.filter_append]
      simp [splitOn]
    · rw [hfront]
  rw [hparts, parts, hjoin, splitOn_append_separator (by simp), splitOn_name hname,
    List.filter_append, List.map_append]
  simp [hname.ne_nil, hname.ne_dot]

/-- A name put behind a directory does not change whether its path is absolute. -/
lemma isAbsolute_join (hname : IsName name) (hdirectory : directory ≠ "") :
    isAbsolute (join directory name) = isAbsolute directory := by
  obtain ⟨front, hjoin, hfront⟩ := exists_toList_join hname hdirectory
  unfold isAbsolute
  rw [hjoin]
  cases front with
  | cons c rest => rcases hfront with hfront | hfront <;> rw [hfront] <;> rfl
  | nil =>
      rcases hfront with hfront | hfront
      · rw [hfront]
        rfl
      · exact absurd (String.toList_eq_nil_iff.mp hfront) hdirectory

/-- A file name stands in the path. -/
lemma fileName?_subset {path : String} (h : fileName? path = some name) :
    name.toList ⊆ path.toList := by
  obtain ⟨hlast, -⟩ := Option.filter_eq_some_iff.mp h
  obtain ⟨part, hpart, rfl⟩ := List.mem_map.mp (List.mem_of_getLast? hlast)
  rw [String.toList_ofList]
  exact subset_of_mem_splitOn (List.mem_filter.mp hpart).1

/-- The stem of a name has no other characters than the name. -/
lemma splitName_subset (name : String) : (splitName name).1 ⊆ name.toList := by
  unfold splitName
  dsimp only
  split_ifs
  · exact List.take_subset _ _
  · exact List.Subset.refl _

/-- A name below a directory names a file. -/
lemma namesDirectory_join (hname : IsName name) (hdirectory : directory ≠ "") :
    namesDirectory (join directory name) = false := by
  obtain ⟨front, hjoin, -⟩ := exists_toList_join hname hdirectory
  have hlast : lastPart (· == '/') (join directory name).toList = name.toList := by
    rw [hjoin, lastPart_append_separator (by simp), lastPart_of_not_mem hname.noSlash]
  simp [namesDirectory, hlast, hname.ne_nil, hname.ne_dot, hname.ne_dots]

end Path

namespace Delivery

/-- The stem of a locator is the standard one, or stands in the locator's last name. -/
lemma stem_eq_output_or (locator : String) :
    stem locator = "output" ∨
      (stem locator ≠ "" ∧ (stem locator).toList ⊆ (lastName locator).toList) := by
  unfold stem
  cases hstem : (Path.stem? (lastName locator)).filter (· ≠ "") with
  | none => exact .inl rfl
  | some text =>
      obtain ⟨hstem, hne⟩ := Option.filter_eq_some_iff.mp hstem
      obtain ⟨name, hname, rfl⟩ := Option.map_eq_some_iff.mp hstem
      refine .inr ⟨by simpa using hne, ?_⟩
      rw [Option.getD_some, String.toList_ofList]
      exact List.Subset.trans (Path.splitName_subset name) (Path.fileName?_subset hname)

/-- No stem is empty. -/
lemma stem_ne_empty (locator : String) : stem locator ≠ "" := by
  rcases stem_eq_output_or locator with houtput | ⟨hne, -⟩
  · rw [houtput]
    decide
  · exact hne

/-- **There is no separator in a stem.** -/
lemma not_mem_stem (locator : String) {c : Char} (hc : c = '/' ∨ c = '\\') :
    c ∉ (stem locator).toList := by
  rcases stem_eq_output_or locator with houtput | ⟨-, hsubset⟩
  · rw [houtput]
    rcases hc with rfl | rfl <;> decide
  · intro hmem
    have hlast := hsubset hmem
    rw [lastName, String.toList_ofList] at hlast
    have hsep := sep_of_mem_lastPart hlast
    rcases hc with rfl | rfl <;> cases hsep

/-- The name of a generated file is a name. -/
lemma isName_fileName (locator : String) (operation : Operation) (t : LocalTime) :
    Path.IsName (fileName locator operation t.stamp) := by
  have hlength : 4 < (fileName locator operation t.stamp).toList.length := by
    rw [toList_fileName]
    simp only [List.length_append, List.length_cons]
    have htxt : ".txt".toList.length = 4 := by decide
    omega
  have hne (l : List Char) (hl : l.length ≤ 4) : (fileName locator operation t.stamp).toList ≠ l :=
    fun heq => absurd hlength (heq ▸ Nat.not_lt.mpr hl)
  refine ⟨?_, hne _ (by decide), hne _ (by decide), hne _ (by decide)⟩
  have htag : '/' ∉ operation.fileTag.toList := by cases operation <;> decide
  have hstamp := t.slash_not_mem_stamp
  rw [LocalTime.toList_stamp] at hstamp
  have htxt : '/' ∉ ".txt".toList := by decide
  rw [toList_fileName]
  simp only [List.mem_append, List.mem_cons, not_or] at hstamp ⊢
  exact ⟨⟨not_mem_stem locator (.inl rfl), by decide, htag, by decide, hstamp⟩, htxt⟩

end Delivery

end CodeReview

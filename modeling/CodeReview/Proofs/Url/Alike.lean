import CodeReview.Proofs.Text.Cut
import CodeReview.Text.Blank
import CodeReview.Url.Reference
import Mathlib.Tactic

/-!
# Addresses that differ in one word

Two texts are the same but for a word when one of them holds the one word where the other holds the
other word.  Two addresses are alike when they are the same but for a word of the query, or of the
fragment.

What comes before a question mark is read without regard to what comes after it
(`afterSlashes?_append_cons`), and a word of a form is read as it is written (`tailOf_alike`).
Therefore addresses that are alike still are after the same reference was read against them
(`resolve?_alike`).
-/

namespace CodeReview

/-- What may be missing is related to itself, if what is there is. -/
lemma rel_self {α : Type} {r : α → α → Prop} (hr : ∀ a, r a a) (x : Option α) :
    Option.Rel r x x := by
  cases x with
  | none => exact .none
  | some a => exact .some (hr a)

/-! ### The same text but for a word -/

/-- The same text, or texts of which one holds `a` where the other holds `b`. -/
def Text.SameBut (a b x y : String) : Prop :=
  x = y ∨ ∃ before after, x = before ++ a ++ after ∧ y = before ++ b ++ after

namespace Text.SameBut

variable {a b x y : String}

/-- The same text in front changes nothing. -/
lemma append_left (h : SameBut a b x y) (z : String) : SameBut a b (z ++ x) (z ++ y) := by
  obtain rfl | ⟨before, after, rfl, rfl⟩ := h
  · exact .inl rfl
  · exact .inr ⟨z ++ before, after, by simp only [String.append_assoc],
      by simp only [String.append_assoc]⟩

/-- The same text behind changes nothing. -/
lemma append_right (h : SameBut a b x y) (z : String) : SameBut a b (x ++ z) (y ++ z) := by
  obtain rfl | ⟨before, after, rfl, rfl⟩ := h
  · exact .inl rfl
  · exact .inr ⟨before, after ++ z, by simp only [String.append_assoc],
      by simp only [String.append_assoc]⟩

/-- Words of one size leave texts of one size. -/
lemma utf8ByteSize_eq (h : SameBut a b x y) (hsize : a.utf8ByteSize = b.utf8ByteSize) :
    x.utf8ByteSize = y.utf8ByteSize := by
  obtain rfl | ⟨before, after, rfl, rfl⟩ := h
  · rfl
  · simp only [String.utf8ByteSize_append, hsize]

/-- The words in their places, given as characters. -/
lemma ofList (before after : List Char) :
    SameBut a b (String.ofList (before ++ a.toList ++ after))
      (String.ofList (before ++ b.toList ++ after)) := by
  refine .inr ⟨String.ofList before, String.ofList after, ?_, ?_⟩
  all_goals simp only [String.ofList_append, String.ofList_toList]

end Text.SameBut

namespace Url

open CodeReview.Text

/-- The same address but for a word of the query or of the fragment. -/
structure Alike (a b : String) (u v : Url) : Prop where
  rest : v = { u with query := v.query, fragment := v.fragment }
  tail : (Option.Rel (SameBut a b) u.query v.query ∧ u.fragment = v.fragment) ∨
    (u.query = v.query ∧ Option.Rel (SameBut a b) u.fragment v.fragment)

section Alike

variable {a b : String} {u v : Url}

/-- Every address is the same as itself. -/
lemma Alike.refl (u : Url) : Alike a b u u :=
  ⟨rfl, .inl ⟨rel_self (fun _ => .inl rfl) _, rfl⟩⟩

/-- What an optional part contributes to a text. -/
lemma sameBut_elim {x y : Option String} (h : Option.Rel (SameBut a b) x y) (sign : String) :
    SameBut a b (x.elim "" (sign ++ ·)) (y.elim "" (sign ++ ·)) := by
  cases h with
  | none => exact .inl rfl
  | some h => exact h.append_left sign

/-- Addresses that differ in a word are written as texts that do. -/
lemma Alike.text (h : Alike a b u v) : SameBut a b u.text v.text := by
  obtain ⟨hrest, htail⟩ := h
  have hfront : v.scheme ++ ":" ++ v.authority ++ v.path.text =
      u.scheme ++ ":" ++ u.authority ++ u.path.text := by
    rw [hrest]
    rfl
  unfold Url.text
  rw [hfront]
  obtain ⟨hquery, hfragment⟩ | ⟨hquery, hfragment⟩ := htail
  · rw [hfragment]
    exact ((sameBut_elim hquery "?").append_left _).append_right _
  · rw [hquery]
    exact (sameBut_elim hfragment "#").append_left _

end Alike

/-! ### Words of a form -/

/-- The characters of encoded form fields. -/
def isFormChar (c : Char) : Bool :=
  c.isAlphanum || ['*', '-', '.', '_', '+', '%'].contains c

/-- Nothing but characters of encoded form fields. -/
def IsFormWord (s : String) : Prop := ∀ c ∈ s.toList, isFormChar c = true

/-- Hexadecimal digits stand in forms. -/
lemma isFormChar_upperHex {n : ℕ} (hn : n < 16) : isFormChar (upperHex n) = true := by
  interval_cases n <;> rfl

/-- Everything that encodes a byte stands in forms. -/
lemma isFormChar_of_mem_percentByte {b : UInt8} {c : Char} (h : c ∈ percentByte b) :
    isFormChar c = true := by
  have hb := b.toNat_lt
  rw [percentByte, List.mem_cons, List.mem_cons, List.mem_singleton] at h
  rcases h with rfl | rfl | rfl
  · rfl
  · exact isFormChar_upperHex (by omega)
  · exact isFormChar_upperHex (by omega)

/-- What is encoded for a form is a word of a form. -/
lemma isFormWord_formEncode (s : String) : IsFormWord (formEncode s) := by
  intro c hc
  rw [formEncode, String.toList_ofList, List.mem_flatMap] at hc
  obtain ⟨b, -, hc⟩ := hc
  unfold formByte at hc
  simp only at hc
  split_ifs at hc with hspace hplain
  · rw [List.mem_singleton.mp hc]
    rfl
  · rw [List.mem_singleton.mp hc, isFormChar, Bool.or_eq_true]
    simp only [Bool.or_eq_true, beq_iff_eq] at hplain
    obtain (((h | h) | h) | h) | h := hplain
    · exact .inl h
    all_goals exact .inr (by rw [h]; rfl)
  · exact isFormChar_of_mem_percentByte hc

section FormChar

variable {c : Char}

/-- Characters of forms are no others. -/
lemma ne_of_isFormChar (h : isFormChar c = true) {d : Char} (hd : isFormChar d = false) :
    c ≠ d := by
  rintro rfl
  exact absurd h (Bool.eq_false_iff.mp hd)

/-- Letters and digits lie between zero and the last small letter. -/
lemma toNat_of_isAlphanum (h : c.isAlphanum = true) :
    '0'.toNat ≤ c.toNat ∧ c.toNat ≤ 'z'.toNat := by
  rcases (Bool.or_eq_true _ _).mp h with h | h
  · rcases (Bool.or_eq_true _ _).mp h with h | h
    · obtain ⟨hlow, hhigh⟩ := of_decide_eq_true h
      exact ⟨le_trans (by decide) hlow, le_trans hhigh (by decide)⟩
    · obtain ⟨hlow, hhigh⟩ := (Bool.and_eq_true _ _).mp h
      exact ⟨le_trans (by decide) (of_decide_eq_true hlow), of_decide_eq_true hhigh⟩
  · obtain ⟨hlow, hhigh⟩ := (Bool.and_eq_true _ _).mp h
    exact ⟨of_decide_eq_true hlow, le_trans (of_decide_eq_true hhigh) (by decide)⟩

/-- Characters of forms are no control characters. -/
lemma isControl_of_isFormChar (h : isFormChar c = true) : isControl c = false := by
  have hrange : 0x20 ≤ c.toNat ∧ c.toNat ≤ 0x7E := by
    rw [isFormChar, Bool.or_eq_true] at h
    rcases h with h | h
    · obtain ⟨hlow, hhigh⟩ := toNat_of_isAlphanum h
      exact ⟨le_trans (by decide) hlow, le_trans hhigh (by decide)⟩
    · simp only [List.contains_eq_mem, decide_eq_true_eq, List.mem_cons, List.not_mem_nil,
        or_false] at h
      rcases h with rfl | rfl | rfl | rfl | rfl | rfl <;> decide
  simp [isControl, hrange.1, hrange.2]

/-- Characters of forms are not encoded in a fragment. -/
lemma inFragmentSet_of_isFormChar (h : isFormChar c = true) : inFragmentSet c = false := by
  simp only [inFragmentSet, isControl_of_isFormChar h, Bool.or_eq_false_iff, beq_eq_false_iff_ne]
  refine ⟨⟨⟨⟨⟨trivial, ?_⟩, ?_⟩, ?_⟩, ?_⟩, ?_⟩
  all_goals exact ne_of_isFormChar h rfl

/-- Characters of forms are not encoded in a query. -/
lemma inQuerySet_of_isFormChar (h : isFormChar c = true) (special : Bool) :
    inQuerySet special c = false := by
  have hquote : c ≠ '\'' := ne_of_isFormChar h rfl
  simp only [inQuerySet, isControl_of_isFormChar h, Bool.or_eq_false_iff, beq_eq_false_iff_ne]
  refine ⟨⟨⟨⟨⟨⟨trivial, ?_⟩, ?_⟩, ?_⟩, ?_⟩, ?_⟩, by simp [hquote]⟩
  all_goals exact ne_of_isFormChar h rfl

end FormChar

/-! ### Up to a question mark -/

/-- Dropped at the ends of an address. -/
def isLow (c : Char) : Bool := c.toNat ≤ 0x20

/-- What is kept of an address: everything but tabs and line breaks. -/
def kept (s : List Char) : List Char := s.filter fun c => !(c == '\t' || c == '\n' || c == '\r')

/-- What is kept of an address is kept part by part. -/
lemma kept_append (x y : List Char) : kept (x ++ y) = kept x ++ kept y := List.filter_append ..

/-- Words of forms are kept as they are. -/
lemma kept_formWord {a : String} (ha : IsFormWord a) : kept a.toList = a.toList := by
  rw [kept, List.filter_eq_self]
  intro c hc
  have htab := ne_of_isFormChar (ha c hc) (d := '\t') rfl
  have hfeed := ne_of_isFormChar (ha c hc) (d := '\n') rfl
  have hreturn := ne_of_isFormChar (ha c hc) (d := '\r') rfl
  simp [htab, hfeed, hreturn]

/-- What is not dropped at the ends of an address is kept as it is. -/
lemma kept_of_not_low {s : List Char} (h : ∀ c ∈ s, isLow c = false) : kept s = s := by
  rw [kept, List.filter_eq_self]
  intro c hc
  have hne (d : Char) (hd : isLow d = true) : (c == d) = false := by
    refine beq_eq_false_iff_ne.mpr fun heq => ?_
    rw [← heq, h c hc] at hd
    cases hd
  simp [hne '\t' rfl, hne '\n' rfl, hne '\r' rfl]

/-- A character that is not dropped is kept between its two sides. -/
lemma kept_append_cons {c : Char} (hc : isLow c = false) (x y : List Char) :
    kept (x ++ c :: y) = kept x ++ c :: kept y := by
  have hself : kept [c] = [c] := kept_of_not_low (by simpa using hc)
  rw [kept_append, ← List.singleton_append, kept_append, hself, List.singleton_append]

/-- What is dropped at the ends of an address is dropped on both sides of a character that is not
low. -/
lemma clean_append_cons {c : Char} (hc : isLow c = false) (x s : List Char) :
    clean (x ++ c :: s) = kept (x.dropWhile isLow) ++ c :: kept (dropEndWhile isLow s) := by
  change kept (dropEndWhile isLow ((x ++ c :: s).dropWhile isLow)) = _
  rw [dropWhile_append_cons isLow hc, dropEndWhile_append_cons isLow hc, kept_append_cons hc]

/-- Nothing is dropped between a question mark and a number sign but tabs and line breaks. -/
lemma clean_append (x m t : List Char) :
    clean (x ++ '?' :: (m ++ '#' :: t)) =
      kept (x.dropWhile isLow) ++ '?' :: (kept m ++ '#' :: kept (dropEndWhile isLow t)) := by
  rw [clean_append_cons rfl, dropEndWhile_append_cons isLow rfl, kept_append_cons rfl]

/-- The address with path, query and fragment of this text. -/
def ending (u : Url) (special : Bool) (s : List Char) : Url :=
  let tail := tailOf special (s.dropWhile (!endsPath ·))
  { u with
    path := pathAfterAuthority special (s.takeWhile (!endsPath ·))
    query := tail.1
    fragment := tail.2 }

/-- What follows user name and password is an end of the text. -/
lemma splitUser_suffix (s : List Char) : (splitUser s).2 <:+ s := by
  have htail : (s.reverse.takeWhile (· ≠ '@')).reverse <:+ s := by
    rw [← List.reverse_prefix, List.reverse_reverse]
    exact List.takeWhile_prefix _
  unfold splitUser
  dsimp only
  split_ifs
  · exact List.suffix_rfl
  · exact htail

/-- What follows the host is an end of the text. -/
lemma splitHost_suffix (inside : Bool) (s : List Char) : (splitHost inside s).2 <:+ s := by
  induction s generalizing inside with
  | nil => exact List.suffix_rfl
  | cons c rest ih =>
      unfold splitHost
      split
      · exact List.suffix_rfl
      · exact (ih _).trans (List.suffix_cons c rest)

/-- The authority of an address is read without regard to what follows the character at which it
ends; that is only the end of what path, query and fragment are read from, after the end of what is
in front. -/
lemma afterSlashes?_append_end (scheme : String) {c : Char}
    (hc : endsAuthority (isSpecial scheme) c = true) (x : List Char) :
    ∃ front, front ⊆ x ∧ ∀ y, afterSlashes? scheme (x ++ c :: y) =
      (afterSlashes? scheme (x ++ [c])).map fun u =>
        u.ending (isSpecial scheme) (front ++ c :: y) := by
  generalize hspecial : isSpecial scheme = special at hc ⊢
  have hends : (!endsAuthority special c) = false := by rw [hc]; rfl
  have harea := takeWhile_append_cons (fun c => !endsAuthority special c) hends x
  have hrest := dropWhile_append_cons (fun c => !endsAuthority special c) hends x
  have hareaMem : x.takeWhile (fun c => !endsAuthority special c) ⊆ x := List.takeWhile_subset _
  have hrestMem : x.dropWhile (fun c => !endsAuthority special c) ⊆ x := List.dropWhile_subset _
  generalize x.takeWhile (fun c => !endsAuthority special c) = area at harea hareaMem
  generalize x.dropWhile (fun c => !endsAuthority special c) = rest at hrest hrestMem
  generalize hport : ((splitHost false (splitUser area).2).2.drop 1).span (fun c => !(c == '\\')) =
    port
  have hportMem : port.2 ⊆ area := by
    rw [← hport, List.span_eq_takeWhile_dropWhile]
    exact ((List.dropWhile_suffix _).trans ((List.drop_suffix _ _).trans
      ((splitHost_suffix _ _).trans (splitUser_suffix area)))).subset
  have hfront : port.2 ++ rest ⊆ x :=
    List.append_subset.mpr ⟨List.Subset.trans hportMem hareaMem, hrestMem⟩
  refine ⟨port.2 ++ rest, hfront, fun y => ?_⟩
  have hcut : ∀ z, port.2 ++ (rest ++ c :: z) = (port.2 ++ rest) ++ c :: z :=
    fun z => (List.append_assoc _ _ _).symm
  have hfull : ∀ z, (rest ++ c :: z).isEmpty = false := by simp
  unfold afterSlashes?
  simp only [hspecial, harea, hrest, hport, hfull, hcut, Option.bind_eq_bind, Option.bind_none]
  generalize splitUser area = user
  generalize splitHost false user.2 = host
  generalize credentialsOf (user.1.getD []) = credentials
  -- no user, no host, an empty host, a host of either kind
  split_ifs
  · rfl
  · rfl
  · cases port? port.1 <;> rfl
  · cases specialHost? host.1 with
    | none => rfl
    | some h => cases port? port.1 <;> rfl
  · cases plainHost? host.1 with
    | none => rfl
    | some h => cases port? port.1 <;> rfl

/-- Where the authority ends at a question mark, or the path does, the rest is query and
fragment. -/
lemma afterSlashes?_append_cons (scheme : String) (x : List Char) :
    ∃ front, ∀ y, afterSlashes? scheme (x ++ '?' :: y) =
      (afterSlashes? scheme (x ++ ['?'])).map fun u =>
        let tail := tailOf (isSpecial scheme) (front ++ '?' :: y)
        { u with query := tail.1, fragment := tail.2 } := by
  have hc : endsAuthority (isSpecial scheme) '?' = true := by simp [endsAuthority]
  obtain ⟨front, -, hfront⟩ := afterSlashes?_append_end scheme hc x
  have hpath := takeWhile_append_cons (fun c => !endsPath c) (c := '?') rfl front
  have hquery := dropWhile_append_cons (fun c => !endsPath c) (c := '?') rfl front
  refine ⟨front.dropWhile (fun c => !endsPath c), fun y => ?_⟩
  have hself := hfront []
  rw [hfront y]
  cases hu : afterSlashes? scheme (x ++ ['?']) with
  | none => rfl
  | some u =>
      rw [hu] at hself
      have hown := congrArg Url.path (Option.some.inj hself)
      simp only [ending, hpath] at hown
      simp only [Option.map_some, ending, hpath, hquery, ← hown]

/-! ### From a question mark on -/

/-- Texts are encoded part by part. -/
lemma encode_append (set : Char → Bool) (x y : List Char) :
    encode set (x ++ y) = encode set x ++ encode set y := List.flatMap_append

/-- A text in which nothing is to be encoded is left as it is. -/
lemma encode_of_plain {set : Char → Bool} {s : List Char} (h : ∀ c ∈ s, set c = false) :
    encode set s = s := by
  induction s with
  | nil => rfl
  | cons c rest ih =>
      rw [encode, List.flatMap_cons, encodeChar, h c List.mem_cons_self]
      exact congrArg (c :: ·) (ih fun d hd => h d (List.mem_cons_of_mem c hd))

section Tail

variable {x : List Char} (special : Bool)

/-- In a text without a number sign every character is another one. -/
lemma forall_ne_sign (hx : '#' ∉ x) : ∀ c ∈ x, decide (c ≠ '#') = true := fun c hc => by
  simpa using fun h : c = '#' => hx (h ▸ hc)

/-- A query that ends at a number sign. -/
lemma tailOf_query_sign (hx : '#' ∉ x) (z : List Char) :
    tailOf special ('?' :: (x ++ '#' :: z)) =
      (some (String.ofList (encode (inQuerySet special) x)),
        some (String.ofList (encode inFragmentSet z))) := by
  have htake : (x ++ '#' :: z).takeWhile (· ≠ '#') = x := by
    rw [List.takeWhile_append_of_pos (forall_ne_sign hx)]
    simp
  have hdrop : (x ++ '#' :: z).dropWhile (· ≠ '#') = '#' :: z := by
    rw [List.dropWhile_append_of_pos (forall_ne_sign hx)]
    simp
  simp only [tailOf, htake, hdrop]

/-- A query whose start holds no number sign; the fragment does not depend on that start. -/
lemma tailOf_query (y : List Char) : ∃ fragment, ∀ x, '#' ∉ x →
    tailOf special ('?' :: (x ++ y)) =
      (some (String.ofList (encode (inQuerySet special) (x ++ y.takeWhile (· ≠ '#')))),
        fragment) := by
  refine ⟨(tailOf special ('?' :: y)).2, fun x hx => ?_⟩
  simp only [tailOf, List.takeWhile_append_of_pos (forall_ne_sign hx),
    List.dropWhile_append_of_pos (forall_ne_sign hx)]

/-- Where neither query nor fragment starts, there is none. -/
lemma tailOf_cons {c : Char} (hquery : c ≠ '?') (hsign : c ≠ '#') (y : List Char) :
    tailOf special (c :: y) = (none, none) := by
  simp [tailOf, hquery, hsign]

end Tail

section Words

variable {a b : String}

/-- Words of a form that stand in a text are in it after encoding. -/
lemma sameBut_encode {set : Char → Bool} (hset : ∀ {c}, isFormChar c = true → set c = false)
    (ha : IsFormWord a) (hb : IsFormWord b) (before after : List Char) :
    SameBut a b (String.ofList (encode set (before ++ a.toList ++ after)))
      (String.ofList (encode set (before ++ b.toList ++ after))) := by
  have hkeep : ∀ w : String, IsFormWord w → encode set (before ++ w.toList ++ after) =
      encode set before ++ w.toList ++ encode set after := fun w hw => by
    rw [encode_append, encode_append, encode_of_plain fun c hc => hset (hw c hc)]
  rw [hkeep a ha, hkeep b hb]
  exact .ofList _ _

/-- Words of forms start no fragment. -/
lemma IsFormWord.not_mem_sign (ha : IsFormWord a) : '#' ∉ a.toList := fun h =>
  absurd (ha _ h) (by decide)

/-- Query and fragment of texts that are the same but for a word of a form. -/
lemma tailOf_alike (ha : IsFormWord a) (hb : IsFormWord b) (special : Bool) {front : List Char}
    (hfront : front ≠ []) (after : List Char) :
    let t := tailOf special (front ++ a.toList ++ after)
    let t' := tailOf special (front ++ b.toList ++ after)
    (Option.Rel (SameBut a b) t.1 t'.1 ∧ t.2 = t'.2) ∨
      (t.1 = t'.1 ∧ Option.Rel (SameBut a b) t.2 t'.2) := by
  obtain ⟨c, front, rfl⟩ := List.exists_cons_of_ne_nil hfront
  simp only [List.cons_append]
  by_cases hquery : c = '?'
  · subst hquery
    by_cases hsign : '#' ∈ front
    · -- the word is in the fragment
      obtain ⟨x, y, rfl, hx⟩ := List.eq_append_cons_of_mem hsign
      simp only [List.append_assoc, List.cons_append]
      rw [tailOf_query_sign special hx, tailOf_query_sign special hx]
      refine .inr ⟨rfl, .some ?_⟩
      simpa using sameBut_encode inFragmentSet_of_isFormChar ha hb y after
    · obtain ⟨fragment, htail⟩ := tailOf_query special after
      have hfront : ∀ w, IsFormWord w → '#' ∉ front ++ w.toList := fun w hw => by
        simp [hsign, hw.not_mem_sign]
      rw [htail _ (hfront a ha), htail _ (hfront b hb)]
      exact .inl ⟨.some (sameBut_encode (fun h => inQuerySet_of_isFormChar h special) ha hb _ _),
        rfl⟩
  · by_cases hsign : c = '#'
    · subst hsign
      exact .inr ⟨rfl, .some (sameBut_encode inFragmentSet_of_isFormChar ha hb _ _)⟩
    · rw [tailOf_cons special hquery hsign, tailOf_cons special hquery hsign]
      exact .inl ⟨.none, rfl⟩

/-! ### References read against addresses that are alike -/

/-- Addresses of the web have one of two schemes. -/
lemma isWeb_iff {u : Url} : u.isWeb = true ↔ u.scheme = "http" ∨ u.scheme = "https" := by
  simp [isWeb]

/-- The scheme of an address of the web is what is in front of the colon. -/
lemma splitScheme?_web {scheme : String} (h : scheme = "http" ∨ scheme = "https")
    (rest : List Char) : splitScheme? (scheme.toList ++ ':' :: rest) = some (scheme, rest) := by
  rcases h with rfl | rfl <;> rfl

/-- A web address is read from its authority on. -/
lemma parse?_of_web {input scheme : String} {rest : List Char}
    (h : splitScheme? (clean input.toList) = some (scheme, rest))
    (hscheme : scheme = "http" ∨ scheme = "https") :
    parse? input = afterSlashes? scheme (rest.dropWhile (isSlash true)) := by
  have hfile : (scheme == "file") = false := by rcases hscheme with rfl | rfl <;> rfl
  have hspecial : isSpecial scheme = true := by rcases hscheme with rfl | rfl <;> rfl
  rw [parse?, h]
  simp only [Option.bind_eq_bind, Option.bind_some, hfile, hspecial, Bool.false_eq_true, if_false,
    if_true]

/-- Web addresses that differ in a word of a form behind a question mark. -/
lemma parse?_alike {scheme : String} (h : scheme = "http" ∨ scheme = "https")
    (ha : IsFormWord a) (hb : IsFormWord b) (x before after t : List Char) :
    Option.Rel (Alike a b)
      (parse? (String.ofList
        (scheme.toList ++ ':' :: (x ++ '?' :: (before ++ a.toList ++ after ++ '#' :: t)))))
      (parse? (String.ofList
        (scheme.toList ++ ':' :: (x ++ '?' :: (before ++ b.toList ++ after ++ '#' :: t))))) := by
  have hspecial : isSpecial scheme = true := by rcases h with rfl | rfl <;> rfl
  have hlow : kept ((scheme.toList ++ ':' :: x).dropWhile isLow) =
      scheme.toList ++ ':' :: kept x := by rcases h with rfl | rfl <;> rfl
  obtain ⟨front, hfront⟩ := afterSlashes?_append_cons scheme ((kept x).dropWhile (isSlash true))
  -- both words are kept as they are written
  have hparse : ∀ w : String, IsFormWord w → parse? (String.ofList
        (scheme.toList ++ ':' :: (x ++ '?' :: (before ++ w.toList ++ after ++ '#' :: t)))) =
      (afterSlashes? scheme ((kept x).dropWhile (isSlash true) ++ ['?'])).map fun u =>
        let tail := tailOf true (front ++ '?' :: kept before ++ w.toList ++
          (kept after ++ '#' :: kept (dropEndWhile isLow t)))
        { u with query := tail.1, fragment := tail.2 } := by
    intro w hw
    have hclean : clean (scheme.toList ++ ':' ::
          (x ++ '?' :: (before ++ w.toList ++ after ++ '#' :: t))) =
        scheme.toList ++ ':' :: (kept x ++ '?' :: (kept before ++ w.toList ++
          (kept after ++ '#' :: kept (dropEndWhile isLow t)))) := by
      have hclean := clean_append (scheme.toList ++ ':' :: x) (before ++ w.toList ++ after) t
      rw [hlow, kept_append, kept_append, kept_formWord hw] at hclean
      simpa only [List.append_assoc, List.cons_append] using hclean
    have hsplit := congrArg splitScheme? hclean
    rw [splitScheme?_web h, ← String.toList_ofList (l := scheme.toList ++ ':' :: _)] at hsplit
    rw [parse?_of_web hsplit h, dropWhile_append_cons (isSlash true) rfl, hfront, hspecial]
    simp only [List.append_assoc, List.cons_append]
  rw [hparse a ha, hparse b hb]
  cases afterSlashes? scheme ((kept x).dropWhile (isSlash true) ++ ['?']) with
  | none => exact .none
  | some u =>
      have hfront : front ++ '?' :: kept before ≠ [] := by simp
      exact .some ⟨rfl, tailOf_alike ha hb true hfront _⟩

variable {u v : Url}

/-- The query stays the same or differs in one word. -/
lemma Alike.query (h : Alike a b u v) :
    u.query = v.query ∨ ∃ before after,
      u.query = some (before ++ a ++ after) ∧ v.query = some (before ++ b ++ after) := by
  obtain ⟨hquery, -⟩ | ⟨hquery, -⟩ := h.tail
  · generalize u.query = x at hquery ⊢
    generalize v.query = y at hquery ⊢
    cases hquery with
    | none => exact .inl rfl
    | some hxy =>
        obtain rfl | ⟨before, after, rfl, rfl⟩ := hxy
        · exact .inl rfl
        · exact .inr ⟨before, after, rfl, rfl⟩
  · exact .inl hquery

/-- What a fragment is appended to. -/
lemma fragmentBase_eq (u : Url) {query : String} (hquery : u.query = some query)
    (rest : List Char) :
    u.origin ++ u.path.text ++ u.queryPart ++ String.ofList ('#' :: rest) =
      String.ofList (u.scheme.toList ++ ':' ::
        (u.authority.toList ++ u.path.text.toList ++ '?' :: (query.toList ++ '#' :: rest))) := by
  rw [← String.toList_inj]
  simp [origin, queryPart, hquery, String.toList_append]

/-- What is read relative to addresses that differ in a word differs in that word, or is the
same. -/
lemma relative?_alike (ha : IsFormWord a) (hb : IsFormWord b) (h : Alike a b u v)
    (hweb : u.isWeb = true) (s : List Char) :
    Option.Rel (Alike a b) (relative? u s) (relative? v s) := by
  have hscheme := isWeb_iff.mp hweb
  have hrest := h.rest
  have horigin : v.origin = u.origin := by rw [hrest]; rfl
  have hauthority : v.authority = u.authority := by rw [hrest]; rfl
  have hpath : v.path = u.path := by rw [hrest]
  have hdirectory : v.directory = u.directory := by rw [hrest]; rfl
  have hsame : v.scheme = u.scheme := by rw [hrest]
  unfold relative?
  split
  · -- the address itself, without its fragment
    refine .some ⟨?_, ?_⟩
    · rw [hrest]
    · exact h.tail.imp (fun h => ⟨h.1, rfl⟩) (fun h => ⟨h.1, .none⟩)
  · next rest =>
    obtain hquery | ⟨before, after, hu, hv⟩ := h.query
    · rw [horigin, hpath, queryPart, queryPart, hquery]
      exact rel_self Alike.refl _
    · change Option.Rel (Alike a b)
        (parse? (u.origin ++ u.path.text ++ u.queryPart ++ String.ofList ('#' :: rest)))
        (parse? (v.origin ++ v.path.text ++ v.queryPart ++ String.ofList ('#' :: rest)))
      rw [fragmentBase_eq u hu, fragmentBase_eq v hv, hsame, hauthority, hpath]
      simp only [String.toList_append]
      exact parse?_alike hscheme ha hb _ _ _ _
  · rw [horigin, hpath]
    exact rel_self Alike.refl _
  · rw [horigin, hdirectory, hsame]
    exact rel_self Alike.refl _

/-- **What a reference stands for at addresses that are alike is alike.** -/
lemma resolve?_alike (ha : IsFormWord a) (hb : IsFormWord b) (h : Alike a b u v)
    (hweb : u.isWeb = true) (input : String) :
    Option.Rel (Alike a b) (resolve? u input) (resolve? v input) := by
  have hsame : v.scheme = u.scheme := by rw [h.rest]
  unfold resolve?
  simp only
  cases splitScheme? (clean input.toList) with
  | none => exact relative?_alike ha hb h hweb _
  | some p =>
      simp only [hsame]
      split_ifs
      · exact relative?_alike ha hb h hweb _
      · exact rel_self Alike.refl _

end Words

end Url

end CodeReview

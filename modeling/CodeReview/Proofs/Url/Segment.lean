import CodeReview.Proofs.Url.Extension

/-!
# Names as segments

A name that is written in a path stays one segment where it holds nothing that separates segments,
ends the path or is dropped (`IsSegment`).  Any other name would have to be encoded, which takes
more room than what is left of it where it is written as it is.  So the two cannot be confused
(`eq_of_encode_length_eq`).
-/

namespace CodeReview.Url

open CodeReview.Text

/-- Characters encoded in a name that is to be one segment. -/
def inNameSet (c : Char) : Bool := inPathSet c || isSlash true c

/-- Characters of a path that separate segments, that end it, and that are dropped from it. -/
def breaks : List Char := ['/', '\\', '?', '#', '\t', '\n', '\r']

/-- A name that is one segment wherever it is written. -/
def IsSegment (name : String) : Prop := ∀ c ∈ name.toList, c ∉ breaks

-- by the characters of the name: the search for an instance may end in one for all characters
instance (name : String) : Decidable (IsSegment name) :=
  List.decidableBAll (· ∉ breaks) name.toList

section Segment

variable {name : String}

/-- A character that breaks no segment is no slash, ends no path, and is kept. -/
lemma not_mem_breaks_iff {c : Char} :
    c ∉ breaks ↔ isSlash true c = false ∧ endsPath c = false ∧ c ∈ kept [c] := by
  simp [breaks, isSlash, endsPath, kept, and_assoc]

/-- A segment has no slash. -/
lemma IsSegment.slash (h : IsSegment name) : ∀ c ∈ name.toList, isSlash true c = false :=
  fun c hc => (not_mem_breaks_iff.mp (h c hc)).1

/-- A segment starts no query and no fragment. -/
lemma IsSegment.sign (h : IsSegment name) : ∀ c ∈ name.toList, endsPath c = false :=
  fun c hc => (not_mem_breaks_iff.mp (h c hc)).2.1

/-- A segment is kept as a whole. -/
lemma IsSegment.kept_eq (h : IsSegment name) : kept name.toList = name.toList := by
  rw [kept, List.filter_eq_self]
  intro c hc
  simpa [kept] using (not_mem_breaks_iff.mp (h c hc)).2.2

end Segment

section Encoding

variable {set set' : Char → Bool} {s t : List Char}

/-- The bytes that are left are put behind those that were read. -/
lemma length_toList_loop (b : ByteArray) (i : ℕ) (done : List UInt8) :
    (ByteArray.toList.loop b i done).length = done.length + (b.size - i) := by
  fun_induction ByteArray.toList.loop b i done with
  | case1 i done hlt ih =>
      rw [ih, List.length_cons]
      omega
  | case2 i done hge =>
      rw [List.length_reverse]
      omega

/-- A character has at least one byte. -/
lemma bytesOf_length_pos (c : Char) : 0 < (bytesOf c).length := by
  have hsize := c.utf8Size_pos
  rw [bytesOf, ByteArray.toList, length_toList_loop]
  simpa [List.utf8Encode] using hsize

/-- Every character is written with at least one. -/
lemma encodeChar_length_pos (set : Char → Bool) (c : Char) : 0 < (encodeChar set c).length := by
  unfold encodeChar
  split_ifs
  · obtain ⟨b, rest, hb⟩ := List.exists_cons_of_length_pos (bytesOf_length_pos c)
    simp [hb, percentByte]
  · exact Nat.one_pos

/-- A character is written with no fewer characters where more are encoded. -/
lemma encodeChar_length_le (hset : ∀ c, set c = true → set' c = true) (c : Char) :
    (encodeChar set c).length ≤ (encodeChar set' c).length := by
  by_cases hc : set c = true
  · simp [encodeChar, hc, hset c hc]
  · have hpos := encodeChar_length_pos set' c
    rw [encodeChar, if_neg hc]
    exact hpos

/-- Texts are encoded character by character. -/
lemma encode_cons (set : Char → Bool) (c : Char) (s : List Char) :
    encode set (c :: s) = encodeChar set c ++ encode set s := List.flatMap_cons

/-- Part of a text takes no more room, encoded, than the whole, where more are encoded. -/
lemma encode_length_le (hset : ∀ c, set c = true → set' c = true) (h : s.Sublist t) :
    (encode set s).length ≤ (encode set' t).length := by
  induction h with
  | slnil => rfl
  | cons c _ ih =>
      rw [encode_cons, List.length_append]
      omega
  | cons_cons c _ ih =>
      rw [encode_cons, encode_cons, List.length_append, List.length_append]
      exact Nat.add_le_add (encodeChar_length_le hset c) ih

/-- Nothing is left out of a text that takes as much room when more of it is encoded. -/
lemma eq_of_encode_length_eq (hset : ∀ c, set c = true → set' c = true) (h : s.Sublist t)
    (heq : (encode set s).length = (encode set' t).length) : s = t := by
  induction h with
  | slnil => rfl
  | cons c h ih =>
      have hpos := encodeChar_length_pos set' c
      have hle := encode_length_le hset h
      rw [encode_cons, List.length_append] at heq
      omega
  | cons_cons c h ih =>
      have hchar := encodeChar_length_le hset c
      have hle := encode_length_le hset h
      rw [encode_cons, encode_cons, List.length_append, List.length_append] at heq
      rw [ih (by omega)]

/-- Only whether its own characters are encoded matters for a text. -/
lemma encode_congr (h : ∀ c ∈ s, set c = set' c) : encode set s = encode set' s := by
  induction s with
  | nil => rfl
  | cons c rest ih =>
      rw [List.forall_mem_cons] at h
      rw [encode_cons, encode_cons, ih h.2, encodeChar, encodeChar, h.1]

end Encoding

/-- A segment longer than any spelling of dots stands for itself. -/
lemma isOwn_of_length {s : String} (h : 6 < s.toList.length) : isOwn s = true := by
  have hne : ∀ t : String, t.toList.length ≤ 6 →
      String.ofList (s.toList.map Char.toLower) ≠ t := by
    rintro t ht rfl
    rw [String.toList_ofList, List.length_map] at ht
    omega
  have hdouble : isDoubleDot s = false := by
    simp [isDoubleDot, hne]
  have hsingle : isSingleDot s = false := by
    simp [isSingleDot, hne]
  rw [isOwn, hdouble, hsingle]
  rfl

end CodeReview.Url

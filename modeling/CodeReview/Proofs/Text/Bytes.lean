import Mathlib.Tactic

/-!
# The bytes of a text

A text is read back from its bytes, and a text without a line feed has no byte of one: every byte of
a character that takes more than one byte is 128 or more.
-/

namespace CodeReview.Text

/-- The bytes of a text. -/
def bytes (s : String) : List UInt8 := s.toUTF8.data.toList

/-- Bytes of texts put together are put together. -/
lemma bytes_append (s t : String) : bytes (s ++ t) = bytes s ++ bytes t := by
  simp [bytes]

/-- The bytes of a text are those of its characters. -/
lemma bytes_eq_flatMap (s : String) : bytes s = s.toList.flatMap String.utf8EncodeChar := by
  have hencode : s.toList.utf8Encode = s.toByteArray := String.utf8Encode_toList
  rw [bytes, String.toUTF8, ← hencode, List.utf8Encode]
  simp

/-- A text is read back from its bytes. -/
lemma fromUTF8?_toUTF8 (s : String) : String.fromUTF8? s.toUTF8 = some s := by
  have hvalid : s.toUTF8.IsValidUTF8 := s.isValidUTF8
  rw [String.fromUTF8?, dif_pos hvalid]
  rfl

/-- A text is read back from the list of its bytes. -/
lemma fromUTF8?_bytes (s : String) : String.fromUTF8? ⟨(bytes s).toArray⟩ = some s := by
  have hbytes : (⟨(bytes s).toArray⟩ : ByteArray) = s.toUTF8 := by
    rw [bytes, Array.toArray_toList]
  rw [hbytes, fromUTF8?_toUTF8]

/-- Bytes that are a text are its bytes. -/
lemma toUTF8_of_fromUTF8? {bytes : ByteArray} {s : String} (h : String.fromUTF8? bytes = some s) :
    s.toUTF8 = bytes := by
  unfold String.fromUTF8? at h
  split_ifs at h
  obtain rfl := Option.some.inj h
  rfl

/-- Different texts have different bytes. -/
lemma toUTF8_inj {s t : String} : s.toUTF8 = t.toUTF8 ↔ s = t := by
  refine ⟨fun h => ?_, congrArg _⟩
  have hread := congrArg String.fromUTF8? h
  rw [fromUTF8?_toUTF8, fromUTF8?_toUTF8] at hread
  exact Option.some.inj hread

/-- A byte with another number is not the line feed. -/
lemma ten_ne_ofNat {n : ℕ} (h : n < 256) (hn : n ≠ 10) : (10 : UInt8) ≠ UInt8.ofNat n := by
  intro heq
  have hval := congrArg UInt8.toNat heq
  rw [UInt8.toNat_ofNat', Nat.mod_eq_of_lt h] at hval
  exact hn hval.symm

/-- Only the line feed is encoded with its byte. -/
lemma ten_not_mem_utf8EncodeChar {c : Char} (h : c ≠ '\n') : 10 ∉ String.utf8EncodeChar c := by
  have hval : c.val.toNat ≠ 10 := fun hten => h (Char.ext (UInt32.toNat_inj.mp hten))
  have hbound := c.val.toNat_lt
  unfold String.utf8EncodeChar
  dsimp only
  -- one case for each number of bytes
  split_ifs <;> simp only [List.mem_cons, List.not_mem_nil, or_false, not_or]
  · exact ten_ne_ofNat (by omega) hval
  · exact ⟨ten_ne_ofNat (by omega) (by omega), ten_ne_ofNat (by omega) (by omega)⟩
  · exact ⟨ten_ne_ofNat (by omega) (by omega), ten_ne_ofNat (by omega) (by omega),
      ten_ne_ofNat (by omega) (by omega)⟩
  · exact ⟨ten_ne_ofNat (by omega) (by omega), ten_ne_ofNat (by omega) (by omega),
      ten_ne_ofNat (by omega) (by omega), ten_ne_ofNat (by omega) (by omega)⟩

/-- A text without a line feed has no byte of one. -/
lemma ten_not_mem_bytes {s : String} (h : '\n' ∉ s.toList) : 10 ∉ bytes s := by
  rw [bytes_eq_flatMap, List.mem_flatMap]
  rintro ⟨c, hc, hmem⟩
  refine ten_not_mem_utf8EncodeChar ?_ hmem
  rintro rfl
  exact h hc

end CodeReview.Text

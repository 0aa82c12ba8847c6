import Sandbox.Frame.Cell

namespace Sandbox.Frame

def Holds (body : ByteArray) (position : Nat) (part : ByteArray) : Prop :=
  ∃ before after : ByteArray, body = before ++ part ++ after ∧ before.size = position

namespace Holds

variable {body part first last : ByteArray} {position : Nat}

theorem size_le (holds : Holds body position part) : position + part.size ≤ body.size := by
  obtain ⟨before, after, rfl, rfl⟩ := holds
  simp [ByteArray.size_append, Nat.add_assoc]

theorem left (holds : Holds body position (first ++ last)) : Holds body position first := by
  obtain ⟨before, after, rfl, rfl⟩ := holds
  exact ⟨before, last ++ after, by simp [ByteArray.append_assoc], rfl⟩

theorem right (holds : Holds body position (first ++ last)) :
    Holds body (position + first.size) last := by
  obtain ⟨before, after, rfl, rfl⟩ := holds
  exact ⟨before ++ first, after, by simp [ByteArray.append_assoc], by simp⟩

theorem append (holds : Holds body position part) (more : ByteArray) :
    Holds (body ++ more) position part := by
  obtain ⟨before, after, rfl, rfl⟩ := holds
  exact ⟨before, after ++ more, by simp [ByteArray.append_assoc], rfl⟩

theorem of_append (body part : ByteArray) : Holds (body ++ part) body.size part :=
  ⟨body, ByteArray.empty, by simp, rfl⟩

theorem extract (holds : Holds body position part) :
    body.extract position (position + part.size) = part := by
  obtain ⟨before, after, rfl, rfl⟩ := holds
  have skipped := ByteArray.extract_append_size_add (a := before) (b := part ++ after) (i := 0)
    (j := part.size)
  rw [ByteArray.append_assoc]
  exact skipped.trans (ByteArray.extract_append_eq_left rfl)

theorem byteAt (holds : Holds body position part) {i : Nat} (within : i < part.size) :
    byteAt body (position + i) = part[i].toNat := by
  have fits := holds.size_le
  obtain ⟨before, after, rfl, rfl⟩ := holds
  rw [Frame.byteAt, getElem?_pos _ _ (by omega), Option.getD_some,
    ByteArray.getElem_append_left (by simp; omega), ByteArray.getElem_append_right (by omega)]
  simp

end Holds

theorem byteAt_eq_getElem {data : ByteArray} {position : Nat} (within : position < data.size) :
    byteAt data position = data[position].toNat := by
  rw [byteAt, getElem?_pos data position within, Option.getD_some]

theorem byteAt_lt (data : ByteArray) (position : Nat) : byteAt data position < 256 :=
  UInt8.toNat_lt _

theorem wordAt_lt (data : ByteArray) (position : Nat) : wordAt data position < 4294967296 := by
  have first := byteAt_lt data position
  have second := byteAt_lt data (position + 1)
  have third := byteAt_lt data (position + 2)
  have fourth := byteAt_lt data (position + 3)
  rw [wordAt]
  omega

theorem signed_bounds {word : Nat} (small : word < 4294967296) :
    -2147483648 ≤ signed word ∧ signed word < 2147483648 := by
  rw [signed]
  split <;> omega

theorem wordAt_of_holds {body : ByteArray} {position word : Nat} (small : word < 4294967296)
    (holds : Holds body position (wordBytes word).toByteArray) : wordAt body position = word := by
  have read : ∀ i (within : i < (wordBytes word).length),
      byteAt body (position + i) = ((wordBytes word)[i]).toNat := by
    intro i within
    have sized : i < (wordBytes word).toByteArray.size := by
      rw [List.size_toByteArray]
      exact within
    rw [holds.byteAt sized, List.getElem_toByteArray]
  have first := read 0 (by simp [wordBytes])
  rw [Nat.add_zero] at first
  rw [wordAt, first, read 1 (by simp [wordBytes]), read 2 (by simp [wordBytes]),
    read 3 (by simp [wordBytes])]
  simp only [wordBytes, List.getElem_cons_zero, List.getElem_cons_succ, UInt8.toNat_ofNat']
  omega

theorem signed_offsetWord {origin target : Nat} (before : target ≤ origin)
    (near : origin ≤ target + 2147483648) :
    (origin : Int) + signed (offsetWord origin target) = target := by
  rw [signed, offsetWord]
  split <;> omega

namespace Cell

theorem wordLength_lengthWord (length : Nat) : wordLength (lengthWord length) = length := by
  rw [wordLength, lengthWord]
  omega

theorem lengthWord_lt {length : Nat} (small : length < 1073741824) :
    lengthWord length < 4294967296 := by
  rw [lengthWord]
  omega

theorem isOutOfLineMark_lengthWord (length : Nat) :
    isOutOfLineMark (UInt8.ofNat (lengthWord length)).toNat = true := by
  simp only [isOutOfLineMark, lengthWord, UInt8.toNat_ofNat', beq_iff_eq]
  omega

end Cell

theorem ne_filler_of_mem_utf8EncodeChar {c : Char} {b : UInt8}
    (member : b ∈ String.utf8EncodeChar c) : b ≠ 0xff := by
  have low : ∀ n < 255, b = UInt8.ofNat n → b ≠ 0xff := by
    rintro n bounded rfl filler
    have := congrArg UInt8.toNat filler
    rw [UInt8.toNat_ofNat', Nat.mod_eq_of_lt (by omega)] at this
    exact Nat.ne_of_lt bounded this
  dsimp only [String.utf8EncodeChar] at member
  split at member
  · rcases List.mem_singleton.mp member with eq
    exact low _ (by omega) eq
  split at member
  · simp only [List.mem_cons, List.not_mem_nil, or_false] at member
    rcases member with eq | eq <;> exact low _ (by omega) eq
  split at member
  · simp only [List.mem_cons, List.not_mem_nil, or_false] at member
    rcases member with eq | eq | eq <;> exact low _ (by omega) eq
  · simp only [List.mem_cons, List.not_mem_nil, or_false] at member
    rcases member with eq | eq | eq | eq <;> exact low _ (by omega) eq

theorem fromUTF8?_toUTF8 (text : String) : String.fromUTF8? text.toUTF8 = some text := by
  have valid : text.toUTF8.IsValidUTF8 := text.isValidUTF8
  rw [String.fromUTF8?, dif_pos valid]
  rfl

theorem getElem_toUTF8_ne_filler (text : String) {i : Nat} (within : i < text.toUTF8.size) :
    text.toUTF8[i] ≠ 0xff := by
  obtain ⟨chars, eq⟩ := text.isValidUTF8
  have bytes : text.toUTF8 = (chars.flatMap String.utf8EncodeChar).toByteArray := eq
  have member : text.toUTF8[i] ∈ chars.flatMap String.utf8EncodeChar := by
    simp only [bytes, List.getElem_toByteArray]
    exact List.getElem_mem _
  obtain ⟨c, -, encoded⟩ := List.mem_flatMap.mp member
  exact ne_filler_of_mem_utf8EncodeChar encoded

/-- No text starts with a continuation byte, which is what the mark looks like. -/
theorem isOutOfLineMark_toUTF8 (text : String) (nonempty : 0 < text.toUTF8.size) :
    Cell.isOutOfLineMark text.toUTF8[0].toNat = false := by
  have leads : ∀ n < 256, (UInt8.ofNat n).IsUTF8FirstByte → Cell.isOutOfLineMark n = false := by
    decide +kernel
  have first : text.toUTF8[0].IsUTF8FirstByte :=
    text.isValidUTF8.isUTF8FirstByte_getElem_zero nonempty
  refine leads _ (UInt8.toNat_lt _) ?_
  rwa [UInt8.ofNat_toNat]

end Sandbox.Frame

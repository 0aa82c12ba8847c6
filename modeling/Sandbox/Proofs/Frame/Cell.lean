import Sandbox.Proofs.Frame.Bytes

namespace Sandbox.Frame.Cell

theorem size_encode (cell heap : Nat) (bytes : ByteArray) : (encode cell heap bytes).size = size := by
  rw [encode]
  split
  · rename_i inline
    have short : bytes.size ≤ size := by simpa [isInline] using inline
    simp only [ByteArray.size_append, List.size_toByteArray, List.length_replicate]
    omega
  · simp [wordBytes, size]

theorem size_spill_of_inline {bytes : ByteArray} (inline : isInline bytes = true) :
    (spill bytes).size = 0 := by
  rw [spill, if_pos inline, ByteArray.size_empty]

theorem takeWhile_range {n m : Nat} {p : Nat → Bool} (le : n ≤ m) (below : ∀ i < n, p i = true)
    (stop : n < m → p n = false) : ((List.range m).takeWhile p).length = n := by
  obtain ⟨rest, rfl⟩ := Nat.exists_eq_add_of_le le
  rw [List.range_add, List.takeWhile_append_of_pos (by simpa using below), List.length_append,
    List.length_range]
  cases rest with
  | zero => simp
  | succ rest =>
    rw [List.range_succ_eq_map, List.map_cons, List.takeWhile_cons_of_neg]
    · simp
    · simp [stop (by omega)]

section
variable {body : ByteArray} {root cell heap : Nat} {text : String}

theorem byteAt_inline (held : Holds body cell (encode cell heap text.toUTF8))
    (inline : isInline text.toUTF8 = true) {i : Nat} (within : i < size) :
    byteAt body (cell + i) = if short : i < text.toUTF8.size then text.toUTF8[i].toNat else 255 := by
  rw [encode, if_pos inline] at held
  have fits : text.toUTF8.size ≤ size := by simpa [isInline] using inline
  split
  · rename_i short
    rw [held.left.byteAt short]
  · rename_i long
    have filler := held.right.byteAt (i := i - text.toUTF8.size) (by
      rw [List.size_toByteArray, List.length_replicate]
      omega)
    rw [List.getElem_toByteArray, List.getElem_replicate] at filler
    rw [show cell + i = cell + text.toUTF8.size + (i - text.toUTF8.size) by omega, filler]
    rfl

theorem decode?_inline (held : Holds body cell (encode cell heap text.toUTF8))
    (inline : isInline text.toUTF8 = true) (floor : Nat) :
    decode? body root floor cell = some (text, floor) := by
  have fits : text.toUTF8.size ≤ size := by simpa [isInline] using inline
  have marked : isOutOfLineMark (byteAt body cell) = false := by
    have first := byteAt_inline held inline (i := 0) (by decide)
    rw [Nat.add_zero] at first
    rw [first]
    split
    · exact isOutOfLineMark_toUTF8 text ‹_›
    · rfl
  have length : inlineLength body cell = text.toUTF8.size := by
    refine takeWhile_range fits ?_ ?_
    · intro i short
      rw [byteAt_inline held inline (by omega), dif_pos short, bne_iff_ne]
      intro filler
      exact getElem_toUTF8_ne_filler text short (UInt8.toNat_inj.mp filler)
    · intro ended
      rw [byteAt_inline held inline ended, dif_neg (by omega)]
      rfl
  have bytes : body.extract cell (cell + text.toUTF8.size) = text.toUTF8 := by
    rw [encode, if_pos inline] at held
    exact held.left.extract
  simp only [decode?, extent?, marked, length, Bool.false_eq_true, if_false]
  change (String.fromUTF8? (body.extract cell (cell + text.toUTF8.size))).bind _ = _
  rw [bytes, fromUTF8?_toUTF8]
  rfl

theorem decode?_outside (held : Holds body cell (encode cell heap text.toUTF8))
    (outside : isInline text.toUTF8 = false) (bytes : Holds body heap text.toUTF8)
    (before : heap + text.toUTF8.size ≤ root) (behind : root ≤ cell)
    (small : body.size < 1073741824) :
    decode? body root heap cell = some (text, heap + text.toUTF8.size) := by
  have long : size < text.toUTF8.size := by simpa [isInline] using outside
  have fits := held.size_le
  rw [size_encode] at fits
  rw [encode, if_neg (Bool.eq_false_iff.mp outside), List.toByteArray_append] at held
  have marked : isOutOfLineMark (byteAt body cell) = true := by
    have first := held.left.byteAt (i := 0) (by simp [wordBytes])
    rw [Nat.add_zero, List.getElem_toByteArray] at first
    rw [first]
    exact isOutOfLineMark_lengthWord _
  have length : wordLength (wordAt body cell) = text.toUTF8.size := by
    rw [wordAt_of_holds (lengthWord_lt (by omega)) held.left, wordLength_lengthWord]
  have start : (cell : Int) + signed (wordAt body (cell + 4)) = heap := by
    have second : Holds body (cell + 4) (wordBytes (offsetWord cell heap)).toByteArray := held.right
    rw [wordAt_of_holds (Nat.mod_lt _ (by decide)) second]
    exact signed_offsetWord (by omega) (by omega)
  have extent : extent? body root heap cell = some (heap, heap + text.toUTF8.size) := by
    simp only [extent?, marked, if_true, length, start]
    rw [if_pos ⟨long, Int.le_refl _, by omega⟩]
    rfl
  rw [decode?, extent]
  change (String.fromUTF8? (body.extract heap (heap + text.toUTF8.size))).bind _ = _
  rw [bytes.extract, fromUTF8?_toUTF8]
  simp [marked]

theorem decode?_encode (held : Holds body cell (encode cell heap text.toUTF8))
    (bytes : Holds body heap (spill text.toUTF8)) (before : heap + (spill text.toUTF8).size ≤ root)
    (behind : root ≤ cell) (small : body.size < 1073741824) :
    decode? body root heap cell = some (text, heap + (spill text.toUTF8).size) := by
  cases inline : isInline text.toUTF8 with
  | true =>
    rw [size_spill_of_inline inline]
    exact decode?_inline held inline heap
  | false =>
    rw [spill, if_neg (Bool.eq_false_iff.mp inline)] at bytes before ⊢
    exact decode?_outside held inline bytes before behind small

end

end Sandbox.Frame.Cell

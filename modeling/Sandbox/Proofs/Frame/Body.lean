import Mathlib
import Sandbox.Frame.Body
import Sandbox.Proofs.Frame.Cell

namespace Sandbox.Frame

namespace Body

theorem heap_cons (string : ByteArray) (rest : List ByteArray) :
    heap (string :: rest) = Cell.spill string ++ heap rest := by
  have behind : ∀ (strings : List ByteArray) (front : ByteArray),
      strings.foldl (fun bytes string => bytes ++ Cell.spill string) front = front ++ heap strings := by
    intro strings
    induction strings with
    | nil => simp [heap]
    | cons string rest ih =>
      intro front
      have first := ih (ByteArray.empty ++ Cell.spill string)
      rw [ByteArray.empty_append] at first
      rw [List.foldl_cons, ih, show heap (string :: rest) = _ from first, ByteArray.append_assoc]
  rw [heap, List.foldl_cons, behind, ByteArray.empty_append]

theorem heapSize_cons (string : ByteArray) (rest : List ByteArray) :
    heapSize (string :: rest) = (Cell.spill string).size + heapSize rest := rfl

theorem size_heap (strings : List ByteArray) : (heap strings).size = heapSize strings := by
  induction strings with
  | nil => rfl
  | cons string rest ih => rw [heap_cons, ByteArray.size_append, ih, heapSize_cons]

theorem size_cells (strings : List ByteArray) (cell heap : Nat) :
    (cells cell heap strings).size = Cell.size * strings.length := by
  induction strings generalizing cell heap with
  | nil => rfl
  | cons string rest ih =>
    rw [cells, ByteArray.size_append, Cell.size_encode, ih, List.length_cons, Nat.mul_succ]
    exact Nat.add_comm _ _

theorem size_zeros (count : Nat) : (zeros count).size = count := by
  simp [zeros]

theorem add_padding_mod (length : Nat) : (length + padding length) % 4 = 0 := by
  rw [padding]
  omega

structure Fits (layout : Layout) (record : Record) : Prop where
  counted : layout.texts? record.tag = some record.texts.length
  tag : record.tag < 256
  room : textsAt + Cell.size * record.texts.length ≤ layout.rootSize

section
variable {layout : Layout} {record : Record}

theorem size_encode (fits : Fits layout record) : (encode layout record).size = size layout record := by
  have room := fits.room
  simp only [encode, size, ByteArray.size_append, size_zeros, Cell.size_encode, size_cells,
    size_heap, List.size_toByteArray, List.length_cons, List.length_nil, List.length_map,
    List.map_cons, textsAt, Cell.size] at room ⊢
  omega

end

theorem decodeTexts?_cells {body : ByteArray} {root : Nat} (small : body.size < 1073741824)
    (texts : List String) (cell heap : Nat)
    (held : Holds body cell (cells cell heap (texts.map String.toUTF8)))
    (bytes : Holds body heap (Body.heap (texts.map String.toUTF8)))
    (before : heap + heapSize (texts.map String.toUTF8) ≤ root) (behind : root ≤ cell) :
    decodeTexts? body root texts.length cell heap = some texts := by
  induction texts generalizing cell heap with
  | nil => rfl
  | cons text rest ih =>
    rw [List.map_cons, cells] at held
    rw [List.map_cons, heap_cons] at bytes
    rw [List.map_cons, heapSize_cons] at before
    have read := Cell.decode?_encode held.left bytes.left (by omega) behind small
    have next := held.right
    rw [Cell.size_encode] at next
    have following := ih _ _ next bytes.right (by omega) (by omega)
    rw [List.length_cons, decodeTexts?, read]
    change (decodeTexts? body root rest.length _ _).bind _ = _
    rw [following]
    rfl

section
variable {layout : Layout} {record : Record}

structure Parts (layout : Layout) (record : Record) (root : Nat) : Prop where
  size : (encode layout record).size = root + layout.rootSize
  aligned : root % 4 = 0
  heap : Holds (encode layout record) 0 (heap ((record.id :: record.texts).map String.toUTF8))
  behind : heapSize ((record.id :: record.texts).map String.toUTF8) ≤ root
  id : Holds (encode layout record) root (Cell.encode root 0 record.id.toUTF8)
  tag : byteAt (encode layout record) (root + Cell.size) = record.tag
  texts : Holds (encode layout record) (root + textsAt)
    (cells (root + textsAt) (Cell.spill record.id.toUTF8).size (record.texts.map String.toUTF8))

theorem parts (fits : Fits layout record) : ∃ root, Parts layout record root := by
  let front := heap ((record.id :: record.texts).map String.toUTF8)
  let root := front.size + padding front.size
  let filled := front ++ zeros (padding front.size)
  let identified := filled ++ Cell.encode root 0 record.id.toUTF8
  let tag := [UInt8.ofNat record.tag, 0, 0, 0].toByteArray
  let texts := cells (root + textsAt) (Cell.spill record.id.toUTF8).size
    (record.texts.map String.toUTF8)
  let rest := zeros (layout.rootSize - textsAt - Cell.size * (record.texts.map String.toUTF8).length)
  have body : encode layout record = identified ++ tag ++ texts ++ rest := rfl
  have filled_size : filled.size = root := by
    simp only [filled, ByteArray.size_append, size_zeros, root]
  have identified_size : identified.size = root + Cell.size := by
    rw [ByteArray.size_append, filled_size, Cell.size_encode]
  have tagged_size : (identified ++ tag).size = root + textsAt := by
    rw [ByteArray.size_append, identified_size]
    rfl
  have tag_held : Holds (encode layout record) (root + Cell.size) tag := by
    rw [body, ← identified_size]
    exact ((Holds.of_append identified tag).append texts).append rest
  refine ⟨root, ?_, add_padding_mod _, ?_, ?_, ?_, ?_, ?_⟩
  · rw [size_encode fits, size, ← size_heap]
  · refine ⟨ByteArray.empty, zeros (padding front.size) ++ Cell.encode root 0 record.id.toUTF8 ++
      tag ++ texts ++ rest, ?_, rfl⟩
    rw [body]
    simp only [identified, filled, front, ByteArray.empty_append, ByteArray.append_assoc]
  · rw [← size_heap]
    exact Nat.le_add_right _ _
  · rw [body]
    have held := Holds.of_append filled (Cell.encode root 0 record.id.toUTF8)
    rw [filled_size] at held
    exact ((held.append tag).append texts).append rest
  · have first := tag_held.byteAt (i := 0) (by simp [tag])
    rw [Nat.add_zero] at first
    rw [first]
    simp only [tag, List.getElem_toByteArray, List.getElem_cons_zero, UInt8.toNat_ofNat']
    exact Nat.mod_eq_of_lt fits.tag
  · have held := (Holds.of_append (identified ++ tag) texts).append rest
    rw [tagged_size] at held
    exact held

end

theorem decode?_encode {layout : Layout} {record : Record} (fits : Fits layout record)
    (small : size layout record < 1073741824) : decode? layout (encode layout record) = some record := by
  obtain ⟨root, parts⟩ := parts fits
  have sized := parts.size
  have bytes := parts.heap
  rw [List.map_cons, heap_cons] at bytes
  have behind := parts.behind
  rw [List.map_cons, heapSize_cons] at behind
  rw [← size_encode fits] at small
  have id := Cell.decode?_encode parts.id bytes.left (by omega) (Nat.le_refl _) small
  have texts : decodeTexts? (encode layout record) root record.texts.length (root + textsAt)
      (Cell.spill record.id.toUTF8).size = some record.texts :=
    decodeTexts?_cells small record.texts _ _ parts.texts (by simpa using bytes.right) behind
      (by omega)
  have root_eq : (encode layout record).size - layout.rootSize = root := by omega
  have guarded : layout.rootSize ≤ (encode layout record).size ∧ root % 4 = 0 :=
    ⟨by omega, parts.aligned⟩
  rw [Nat.zero_add] at id
  simp only [decode?, root_eq, parts.tag, fits.counted, guarded, and_self, guard, if_true]
  change ((Cell.decode? (encode layout record) root 0 root).bind _) = _
  rw [id]
  change ((decodeTexts? (encode layout record) root record.texts.length (root + textsAt)
    (Cell.spill record.id.toUTF8).size).bind _) = _
  rw [texts]
  rfl

end Body

class LawfulFramed (α : Type) [Framed α] : Prop where
  fits (message : α) : Body.Fits (Framed.layout α) (Framed.record message)
  ofRecord?_record (message : α) : Framed.ofRecord? (Framed.record message) = some message

instance : LawfulFramed Request where
  fits
    | ⟨_, .ping⟩ | ⟨_, .run _⟩ =>
      ⟨rfl, Nat.le_of_ble_eq_true rfl, Nat.le_of_ble_eq_true rfl⟩
  ofRecord?_record
    | ⟨_, .ping⟩ | ⟨_, .run _⟩ => rfl

instance : LawfulFramed Response where
  fits
    | ⟨_, .ready⟩ | ⟨_, .result _ _⟩ | ⟨_, .failure _⟩ =>
      ⟨rfl, Nat.le_of_ble_eq_true rfl, Nat.le_of_ble_eq_true rfl⟩
  ofRecord?_record
    | ⟨_, .ready⟩ | ⟨_, .result _ _⟩ | ⟨_, .failure _⟩ => rfl

section
variable {α : Type} [Framed α]

theorem encode_eq_ok {message : α} {body : ByteArray} : encode message = .ok body ↔
    bodySize message ≤ maxBody ∧ body = Body.encode (Framed.layout α) (Framed.record message) := by
  rw [encode]
  split
  · simp
    omega
  · simp [eq_comm]
    omega

variable [LawfulFramed α]

theorem decode_encode {message : α} {body : ByteArray} (encoded : encode message = .ok body) :
    decode body = .ok message := by
  obtain ⟨bounded, rfl⟩ := encode_eq_ok.mp encoded
  have small : Body.size (Framed.layout α) (Framed.record message) < 1073741824 :=
    Nat.lt_of_le_of_lt bounded (by decide)
  have read := Body.decode?_encode (LawfulFramed.fits message) small
  simp only [decode, read, Option.bind_some, LawfulFramed.ofRecord?_record]

end

theorem enclose_inj {body body' : ByteArray} (same : enclose body = enclose body') :
    body = body' := by
  have lengths : (wordBytes body.size).toByteArray.size = (wordBytes body'.size).toByteArray.size := by
    rw [List.size_toByteArray, List.size_toByteArray]
    rfl
  exact ((ByteArray.append_eq_append_iff_of_size_eq_left lengths).mp same).2

structure RoundTrips (α : Type) [Framed α] : Prop where
  sized : ∀ (message : α) body, encode message = .ok body →
    body.size = bodySize message ∧ body.size ≤ maxBody
  aligned : ∀ (message : α) body, encode message = .ok body →
    ∃ root, body.size = root + (Framed.layout α).rootSize ∧ root % 4 = 0
  decodes : ∀ (message : α) body, encode message = .ok body → decode body = .ok message
  injective : ∀ (message message' : α) body, encode message = .ok body →
    encode message' = .ok body → message = message'
  unshared : ∀ (message message' : α) body body', encode message = .ok body →
    encode message' = .ok body' → enclose body = enclose body' → message = message'

theorem LawfulFramed.roundTrips (α : Type) [Framed α] [LawfulFramed α] : RoundTrips α := by
  have injective : ∀ (message message' : α) body, encode message = .ok body →
      encode message' = .ok body → message = message' := by
    intro message message' body encoded encoded'
    exact Except.ok.inj ((decode_encode encoded).symm.trans (decode_encode encoded'))
  refine ⟨?_, ?_, ?_, injective, ?_⟩
  · intro message body encoded
    obtain ⟨bounded, rfl⟩ := encode_eq_ok.mp encoded
    have sized := Body.size_encode (LawfulFramed.fits message)
    exact ⟨sized, Nat.le_trans (Nat.le_of_eq sized) bounded⟩
  · intro message body encoded
    obtain ⟨bounded, rfl⟩ := encode_eq_ok.mp encoded
    obtain ⟨root, parts⟩ := Body.parts (LawfulFramed.fits message)
    exact ⟨root, parts.size, parts.aligned⟩
  · exact fun message body => decode_encode
  · intro message message' body body' encoded encoded' same
    obtain rfl := enclose_inj same
    exact injective message message' body encoded encoded'

theorem frames_round_trip : RoundTrips Request ∧ RoundTrips Response :=
  ⟨LawfulFramed.roundTrips Request, LawfulFramed.roundTrips Response⟩

end Sandbox.Frame

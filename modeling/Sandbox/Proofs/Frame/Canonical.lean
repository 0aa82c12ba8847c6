import Sandbox.Proofs.Frame.Body

namespace Sandbox.Frame

theorem toUTF8_of_fromUTF8? {bytes : ByteArray} {text : String}
    (read : String.fromUTF8? bytes = some text) : text.toUTF8 = bytes := by
  unfold String.fromUTF8? at read
  split at read
  · cases read
    rfl
  · cases read

namespace Cell

theorem inlineLength_le (body : ByteArray) (cell : Nat) : inlineLength body cell ≤ size := by
  have shorter := (List.takeWhile_sublist (fun i => byteAt body (cell + i) != 0xff)
    (l := List.range size)).length_le
  rwa [List.length_range] at shorter

theorem decode?_eq_some {body : ByteArray} {root floor cell : Nat} {text : String} {next : Nat}
    (read : decode? body root floor cell = some (text, next)) : ∃ start stop,
      extent? body root floor cell = some (start, stop) ∧
      text.toUTF8 = body.extract start stop ∧
      next = if isOutOfLineMark (byteAt body cell) then stop else floor := by
  rcases extent : extent? body root floor cell with _ | ⟨start, stop⟩
  · simp [decode?, extent] at read
  · simp only [decode?, extent, Option.bind_eq_bind, Option.bind_some, Option.bind_eq_some_iff,
      Option.pure_def, Option.some.injEq, Prod.mk.injEq] at read
    obtain ⟨text', valid, rfl, rfl⟩ := read
    exact ⟨start, stop, rfl, toUTF8_of_fromUTF8? valid, rfl⟩

theorem decode?_floor {body : ByteArray} {root floor cell : Nat} {text : String} {next : Nat}
    (within : root ≤ body.size) (below : floor ≤ root)
    (read : decode? body root floor cell = some (text, next)) :
    floor + (spill text.toUTF8).size ≤ next ∧ next ≤ root := by
  obtain ⟨start, stop, extent, bytes, rfl⟩ := decode?_eq_some read
  have sized := congrArg ByteArray.size bytes
  rw [ByteArray.size_extract] at sized
  cases mark : isOutOfLineMark (byteAt body cell) with
  | false =>
    simp only [extent?, mark, Bool.false_eq_true, if_false, Option.some.injEq, Prod.mk.injEq] at extent
    obtain ⟨rfl, rfl⟩ := extent
    have short := inlineLength_le body cell
    have inline : isInline text.toUTF8 = true := by
      simp only [isInline, decide_eq_true_eq]
      omega
    rw [size_spill_of_inline inline]
    exact ⟨Nat.le_refl _, below⟩
  | true =>
    simp only [extent?, mark, if_true, Option.ite_none_right_eq_some, Option.some.injEq,
      Prod.mk.injEq] at extent
    obtain ⟨⟨long, behind, before⟩, rfl, rfl⟩ := extent
    have outside : isInline text.toUTF8 = false := by
      simp only [isInline, decide_eq_false_iff_not]
      omega
    rw [spill, if_neg (Bool.eq_false_iff.mp outside), if_pos rfl]
    omega

end Cell

namespace Body

theorem heapSize_le_of_decodeTexts? {body : ByteArray} {root : Nat} (within : root ≤ body.size)
    {count cell floor : Nat} {texts : List String} (below : floor ≤ root)
    (read : decodeTexts? body root count cell floor = some texts) :
    floor + heapSize (texts.map String.toUTF8) ≤ root := by
  induction count generalizing cell floor texts with
  | zero =>
    cases read
    exact below
  | succ count ih =>
    simp only [decodeTexts?, Option.bind_eq_bind, Option.bind_eq_some_iff, Option.pure_def,
      Option.some.injEq] at read
    obtain ⟨⟨text, next⟩, first, rest, later, rfl⟩ := read
    obtain ⟨risen, below'⟩ := Cell.decode?_floor within below first
    have following := ih below' later
    rw [List.map_cons, heapSize_cons]
    dsimp only at following ⊢
    omega

theorem add_padding_le {length root : Nat} (aligned : root % 4 = 0) (fits : length ≤ root) :
    length + padding length ≤ root := by
  unfold padding
  omega

theorem size_le_of_decode? {layout : Layout} {body : ByteArray} {record : Record}
    (read : decode? layout body = some record) : size layout record ≤ body.size := by
  simp only [decode?, guard, Option.bind_eq_bind, Option.bind_eq_some_iff, Option.pure_def,
    Option.some.injEq, Option.failure_eq_none, Option.ite_none_right_eq_some] at read
  obtain ⟨-, ⟨⟨roomy, aligned⟩, -⟩, count, counted, ⟨id, floor⟩, identified, texts, found, rfl⟩ :=
    read
  have within : body.size - layout.rootSize ≤ body.size := Nat.sub_le _ _
  obtain ⟨risen, below⟩ := Cell.decode?_floor within (Nat.zero_le _) identified
  have following := heapSize_le_of_decodeTexts? within below found
  have fits : heapSize ((id :: texts).map String.toUTF8) ≤ body.size - layout.rootSize := by
    rw [List.map_cons, heapSize_cons]
    omega
  have padded := add_padding_le aligned fits
  dsimp only [size]
  omega

end Body

section
variable {α : Type} [Framed α]

class FaithfulFramed (α : Type) [Framed α] : Prop where
  record_of_ofRecord? {record : Record} {message : α} :
    Framed.ofRecord? record = some message → Framed.record message = record

instance : FaithfulFramed Request where
  record_of_ofRecord? {record message} read := by
    simp only [Framed.ofRecord?] at read
    split at read
    · cases read
      rfl
    · cases read
      rfl
    · cases read

instance : FaithfulFramed Response where
  record_of_ofRecord? {record message} read := by
    simp only [Framed.ofRecord?] at read
    split at read
    · cases read
      rfl
    · cases read
      rfl
    · cases read
      rfl
    · cases read

theorem bodySize_le_of_decode [FaithfulFramed α] {body : ByteArray} {message : α}
    (accepted : decode body = .ok message) : bodySize message ≤ body.size := by
  unfold decode at accepted
  split at accepted
  · rename_i message' found
    cases accepted
    obtain ⟨record, read, same⟩ := Option.bind_eq_some_iff.mp found
    rw [bodySize, FaithfulFramed.record_of_ofRecord? same]
    exact Body.size_le_of_decode? read
  · cases accepted

/-- Whatever message the body is read as can be written again, in no more bytes, and is then read as
the same. -/
def Forwards (α : Type) [Framed α] (body : ByteArray) : Prop :=
  ∀ message : α, decode body = .ok message →
    ∃ canonical, encode message = .ok canonical ∧ canonical.size ≤ body.size ∧
      decode canonical = .ok message

theorem forwards_of_bounded [LawfulFramed α] [FaithfulFramed α] {body : ByteArray}
    (bounded : body.size ≤ maxBody) : Forwards α body := by
  intro message accepted
  have shorter := bodySize_le_of_decode accepted
  have encoded : encode message =
      .ok (Body.encode (Framed.layout α) (Framed.record message)) :=
    encode_eq_ok.mpr ⟨Nat.le_trans shorter bounded, rfl⟩
  have sized := ((LawfulFramed.roundTrips α).sized message _ encoded).1
  exact ⟨_, encoded, Nat.le_trans (Nat.le_of_eq sized) shorter, decode_encode encoded⟩

end

theorem accepted_forwards (body : ByteArray) (bounded : body.size ≤ maxBody) :
    Forwards Request body ∧ Forwards Response body :=
  ⟨forwards_of_bounded bounded, forwards_of_bounded bounded⟩

def roundabout : ByteArray :=
  [7, 7, 7, 49, 50, 51, 52, 53, 54, 55, 56, 57, 7, 7, 7, 7,
    97, 255, 0, 0, 0, 0, 0, 0, 1, 7, 7, 7, 137, 0, 0, 0, 231, 255, 255, 255].toByteArray

theorem accepted_forwards_roundabout : roundabout.size ≤ maxBody ∧
    decode roundabout = .ok (⟨⟨"a"⟩, .run "123456789"⟩ : Request) ∧
    ∃ canonical, encode (⟨⟨"a"⟩, .run "123456789"⟩ : Request) = .ok canonical ∧
      canonical.size ≤ roundabout.size ∧
      decode canonical = .ok (⟨⟨"a"⟩, .run "123456789"⟩ : Request) := by
  have bounded : roundabout.size ≤ maxBody := by decide
  have accepted : decode roundabout = .ok (⟨⟨"a"⟩, .run "123456789"⟩ : Request) := by
    decide +kernel
  obtain ⟨forwards, -⟩ := accepted_forwards roundabout bounded
  exact ⟨bounded, accepted, forwards _ accepted⟩

end Sandbox.Frame

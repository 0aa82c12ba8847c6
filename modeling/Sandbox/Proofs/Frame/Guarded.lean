import Sandbox.Proofs.Frame.Placement

/-!
Decoding with every step checked: a byte is read only where there is one, a number is used only if it
fits its width, and a part of the body is taken only if it lies in it. On bodies of any content the
checks never fail, so that the decoder without them does the same.
-/

namespace Sandbox.Frame

/-- Why a checked decoder stops: it rejects the body, or it is about to do what it must not. -/
inductive Stop
  | rejected
  | outside (position : Nat)
  | wrapped (value : Int)

namespace Guarded

def accept {β : Type} : Option β → Except Stop β
  | some value => .ok value
  | none => .error .rejected

def byte (body : ByteArray) (position : Nat) : Except Stop Nat :=
  if within : position < body.size then .ok body[position].toNat else .error (.outside position)

def number (range : Nat) (value : Int) : Except Stop Int :=
  if -(range : Int) ≤ value ∧ value < range then .ok value else .error (.wrapped value)

def thirtyBits : Nat := 1073741824

def int32 : Nat := 2147483648

def int64 : Nat := 9223372036854775808

def slice (body : ByteArray) (start stop : Nat) : Except Stop ByteArray :=
  if start ≤ stop ∧ stop ≤ body.size then .ok (body.extract start stop) else .error (.outside stop)

def word (body : ByteArray) (position : Nat) : Except Stop Nat := do
  let first ← byte body position
  let second ← byte body (position + 1)
  let third ← byte body (position + 2)
  let fourth ← byte body (position + 3)
  return first + 256 * second + 65536 * third + 16777216 * fourth

def inlineLength (body : ByteArray) (cell : Nat) : Nat → Nat → Except Stop Nat
  | 0, length => return length
  | left + 1, length => do
    if (← byte body (cell + length)) = 0xff then return length
    else inlineLength body cell left (length + 1)

/-- The extent of a string that lies outside of its cell. Its length has thirty bits, its offset
thirty-two with the sign, and positions are computed in sixty-four. -/
def distant (body : ByteArray) (root floor cell : Nat) : Except Stop (Nat × Nat) := do
  let length ← number thirtyBits (Cell.wordLength (← word body cell))
  let offset ← number int32 (signed (← word body (cell + 4)))
  let start ← number int64 (cell + offset)
  let stop ← number int64 (start + length)
  if Cell.size < length ∧ floor ≤ start ∧ stop ≤ root then return (start.toNat, stop.toNat)
  else throw .rejected

def extent (body : ByteArray) (root floor cell : Nat) : Except Stop (Nat × Nat) := do
  if Cell.isOutOfLineMark (← byte body cell) then distant body root floor cell
  else return (cell, cell + (← inlineLength body cell Cell.size 0))

def text (body : ByteArray) (root floor cell : Nat) : Except Stop (String × Nat) := do
  let (start, stop) ← extent body root floor cell
  let text ← accept (String.fromUTF8? (← slice body start stop))
  return (text, if Cell.isOutOfLineMark (← byte body cell) then stop else floor)

def texts (body : ByteArray) (root : Nat) : Nat → Nat → Nat → Except Stop (List String)
  | 0, _, _ => return []
  | count + 1, cell, floor => do
    let (text, floor) ← text body root floor cell
    return text :: (← texts body root count (cell + Cell.size) floor)

def record (layout : Layout) (body : ByteArray) : Except Stop Record := do
  if layout.rootSize ≤ body.size ∧ (body.size - layout.rootSize) % 4 = 0 then
    let root := body.size - layout.rootSize
    let tag ← byte body (root + Cell.size)
    let count ← accept (layout.texts? tag)
    let (id, floor) ← text body root 0 root
    let texts ← texts body root count (root + Body.textsAt) floor
    return ⟨id, tag, texts⟩
  else throw .rejected

section
variable {body : ByteArray} {root floor cell : Nat}

theorem accept_bind {β γ : Type} (value? : Option β) (f : β → Option γ) :
    accept (value? >>= f) = accept value? >>= fun value => accept (f value) := by
  cases value? <;> rfl

theorem byte_eq {position : Nat} (within : position < body.size) :
    byte body position = .ok (byteAt body position) := by
  rw [byte, dif_pos within, byteAt_eq_getElem within]

theorem word_eq {position : Nat} (within : position + 4 ≤ body.size) :
    word body position = .ok (wordAt body position) := by
  rw [word, byte_eq (by omega), byte_eq (by omega), byte_eq (by omega), byte_eq (by omega)]
  rfl

theorem number_eq {range : Nat} {value : Int} (low : -(range : Int) ≤ value)
    (high : value < range) : number range value = .ok value :=
  if_pos ⟨low, high⟩

theorem inlineLength_eq_takeWhile (left length : Nat) (within : cell + (length + left) ≤ body.size) :
    inlineLength body cell left length = .ok (length +
      ((List.range' length left).takeWhile fun i => byteAt body (cell + i) != 0xff).length) := by
  induction left generalizing length with
  | zero => rfl
  | succ left ih =>
    rw [inlineLength, byte_eq (by omega), List.range'_succ]
    by_cases filler : byteAt body (cell + length) = 0xff
    · rw [List.takeWhile_cons_of_neg (by simp [filler])]
      exact if_pos filler
    · rw [List.takeWhile_cons_of_pos (by simpa using filler), List.length_cons]
      refine (if_neg filler).trans ((ih (length + 1) (by omega)).trans ?_)
      congr 1
      omega

theorem inlineLength_eq (within : cell + Cell.size ≤ body.size) :
    inlineLength body cell Cell.size 0 = .ok (Cell.inlineLength body cell) := by
  rw [inlineLength_eq_takeWhile _ _ (by omega), Nat.zero_add, Cell.inlineLength,
    List.range_eq_range']

theorem ok_bind {β γ : Type} (value : β) (f : β → Except Stop γ) : (.ok value >>= f) = f value := rfl

theorem distant_eq (within : cell + Cell.size ≤ body.size) (bounded : body.size ≤ maxBody) :
    distant body root floor cell =
      let length := Cell.wordLength (wordAt body cell)
      let start := (cell : Int) + signed (wordAt body (cell + 4))
      if Cell.size < length ∧ (floor : Int) ≤ start ∧ start + length ≤ root then
        .ok (start.toNat, start.toNat + length)
      else .error .rejected := by
  have size : Cell.size = 8 := rfl
  have limit : maxBody = 16777216 := rfl
  have first := wordAt_lt body cell
  obtain ⟨low, high⟩ := signed_bounds (wordAt_lt body (cell + 4))
  have long : Cell.wordLength (wordAt body cell) < 1073741824 := by
    rw [Cell.wordLength]
    omega
  rw [distant, word_eq (by omega), ok_bind]
  generalize Cell.wordLength (wordAt body cell) = length at long ⊢
  rw [number_eq (by omega) (by rw [thirtyBits]; omega), ok_bind, word_eq (by omega), ok_bind]
  generalize signed (wordAt body (cell + 4)) = offset at low high ⊢
  rw [number_eq (by rw [int32]; omega) (by rw [int32]; omega), ok_bind,
    number_eq (by rw [int64]; omega) (by rw [int64]; omega), ok_bind,
    number_eq (by rw [int64]; omega) (by rw [int64]; omega), ok_bind]
  dsimp only
  by_cases fits : Cell.size < length ∧ (floor : Int) ≤ cell + offset ∧ cell + offset + length ≤ root
  · rw [if_pos fits, if_pos ⟨Int.ofNat_lt.mpr fits.1, fits.2⟩]
    have stop : (cell + offset + length).toNat = (cell + offset).toNat + length := by omega
    rw [stop]
    rfl
  · rw [if_neg fits, if_neg fun fits' => fits ⟨Int.ofNat_lt.mp fits'.1, fits'.2⟩]
    rfl

theorem extent_eq (within : cell + Cell.size ≤ body.size) (bounded : body.size ≤ maxBody) :
    extent body root floor cell = accept (Cell.extent? body root floor cell) := by
  have size : Cell.size = 8 := rfl
  rw [extent, byte_eq (by omega), ok_bind, Cell.extent?]
  split
  · rw [distant_eq within bounded]
    dsimp only
    split <;> rfl
  · rw [inlineLength_eq within, ok_bind]
    rfl

theorem text_eq (rooted : root ≤ body.size) (within : cell + Cell.size ≤ body.size)
    (bounded : body.size ≤ maxBody) :
    text body root floor cell = accept (Cell.decode? body root floor cell) := by
  have size : Cell.size = 8 := rfl
  rw [text, extent_eq within bounded, Cell.decode?, accept_bind]
  rcases found : Cell.extent? body root floor cell with _ | ⟨start, stop⟩
  · rfl
  · obtain ⟨ordered, inside⟩ := Cell.extent?_within rooted within found
    rw [accept, ok_bind, ok_bind]
    dsimp only
    rw [slice, if_pos ⟨ordered, inside⟩, ok_bind, accept_bind, byte_eq (by omega)]
    rfl

theorem texts_eq (rooted : root ≤ body.size) (bounded : body.size ≤ maxBody) {count : Nat}
    (within : cell + Cell.size * count ≤ body.size) :
    texts body root count cell floor = accept (Body.decodeTexts? body root count cell floor) := by
  induction count generalizing cell floor with
  | zero => rfl
  | succ count ih =>
    rw [Nat.mul_succ] at within
    rw [texts, text_eq rooted (by omega) bounded, Body.decodeTexts?, accept_bind]
    congr 1
    funext first
    obtain ⟨string, next⟩ := first
    dsimp only
    rw [ih (by omega), accept_bind]
    rfl

end

end Guarded

structure Layout.Roomy (layout : Layout) : Prop where
  tag : Body.textsAt ≤ layout.rootSize
  texts : ∀ tag count, layout.texts? tag = some count →
    Body.textsAt + Cell.size * count ≤ layout.rootSize

theorem Guarded.record_eq {layout : Layout} {body : ByteArray} (roomy : layout.Roomy)
    (bounded : body.size ≤ maxBody) :
    record layout body = accept (Body.decode? layout body) := by
  have size : Cell.size = 8 := rfl
  have behind : Body.textsAt = 12 := rfl
  have tagged := roomy.tag
  rw [record, Body.decode?]
  by_cases fits : layout.rootSize ≤ body.size ∧ (body.size - layout.rootSize) % 4 = 0
  · have rooted : body.size - layout.rootSize + layout.rootSize = body.size :=
      Nat.sub_add_cancel fits.1
    rw [if_pos fits, guard, if_pos fits]
    generalize body.size - layout.rootSize = root at rooted ⊢
    dsimp only
    rw [byte_eq (by omega), ok_bind, accept_bind, show accept (pure ()) = .ok () from rfl, ok_bind]
    rcases counted : layout.texts? (byteAt body (root + Cell.size)) with _ | count
    · rfl
    · have room := roomy.texts _ count counted
      rw [accept, ok_bind, Option.bind_eq_bind, Option.bind_some, accept_bind,
        text_eq (by omega) (by omega) bounded]
      congr 1
      funext first
      obtain ⟨id, floor⟩ := first
      dsimp only
      rw [texts_eq (by omega) bounded (by omega), accept_bind]
      rfl
  · rw [if_neg fits, guard, if_neg fits]
    rfl

theorem roomy_layouts : (Framed.layout Request).Roomy ∧ (Framed.layout Response).Roomy := by
  refine ⟨⟨by decide, ?_⟩, ⟨by decide, ?_⟩⟩
  · rintro (_ | _ | tag) count counted <;> cases counted <;> decide
  · rintro (_ | _ | _ | tag) count counted <;> cases counted <;> decide

/-- Decoding a body does nothing that it must not, and rejects it or finds a message whose strings
lie in it. -/
structure Safe (α : Type) [Framed α] (body : ByteArray) : Prop where
  unstopped : ∀ stop, Guarded.record (Framed.layout α) body = .error stop → stop = .rejected
  guarded : Guarded.record (Framed.layout α) body =
    Guarded.accept (Body.decode? (Framed.layout α) body)
  answers : decode (α := α) body = .error (.codec .undecodable) ∨
    ∃ (message : α) (root : Nat) (extents : List (Nat × Nat)), decode body = .ok message ∧
      Placed (Framed.layout α) body (Framed.record message) root extents

theorem safe_of_roomy {α : Type} [Framed α] [LawfulFramed α] [FaithfulFramed α]
    (roomy : (Framed.layout α).Roomy) {body : ByteArray} (bounded : body.size ≤ maxBody) :
    Safe α body := by
  have guarded := Guarded.record_eq roomy bounded
  refine ⟨?_, guarded, ?_⟩
  · intro stop stopped
    rw [guarded] at stopped
    cases read : Body.decode? (Framed.layout α) body with
    | none =>
      rw [read] at stopped
      cases stopped
      rfl
    | some record =>
      rw [read] at stopped
      cases stopped
  · rcases accepted : decode (α := α) body with cause | message
    · left
      unfold decode at accepted
      split at accepted
      · cases accepted
      · exact accepted.symm
    · obtain ⟨root, extents, placed⟩ := placed_of_decode accepted
      exact .inr ⟨message, root, extents, rfl, placed⟩

theorem bodies_decode_safely (body : ByteArray) (bounded : body.size ≤ maxBody) :
    Safe Request body ∧ Safe Response body :=
  ⟨safe_of_roomy roomy_layouts.1 bounded, safe_of_roomy roomy_layouts.2 bounded⟩

theorem bodies_decode_safely_roundabout : roundabout.size ≤ maxBody ∧
    Safe Request roundabout ∧ Safe Response roundabout ∧
    Guarded.record (Framed.layout Request) roundabout = .ok ⟨"a", 1, ["123456789"]⟩ := by
  have bounded : roundabout.size ≤ maxBody := by decide
  obtain ⟨request, response⟩ := bodies_decode_safely roundabout bounded
  have read : Body.decode? (Framed.layout Request) roundabout = some ⟨"a", 1, ["123456789"]⟩ := by
    decide +kernel
  exact ⟨bounded, request, response, request.guarded.trans (congrArg Guarded.accept read)⟩

end Sandbox.Frame

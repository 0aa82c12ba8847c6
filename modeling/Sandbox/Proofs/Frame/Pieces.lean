import Sandbox.Proofs.Frame.Truncation

namespace Sandbox

def Request.strings : Request → List String
  | ⟨id, .ping⟩ => [id.text]
  | ⟨id, .run code⟩ => [id.text, code]

def Response.strings : Response → List String
  | ⟨id, .ready⟩ => [id.text]
  | ⟨id, .result stdout stderr⟩ => [id.text, stdout, stderr]
  | ⟨id, .failure message⟩ => [id.text, message]

namespace Frame

/-! ## Sizes of bodies -/

def roundedUp (length : Nat) : Nat := (length + 3) / 4 * 4

def spilled (texts : List String) : Nat :=
  ((texts.map String.utf8ByteSize).filter fun length => 8 < length).sum

theorem heapSize_eq_spilled (texts : List String) :
    Body.heapSize (texts.map String.toUTF8) = spilled texts := by
  induction texts with
  | nil => rfl
  | cons text rest ih =>
    rw [List.map_cons, Body.heapSize_cons, ih, spilled, spilled, List.map_cons, Cell.spill,
      Cell.isInline]
    by_cases long : 8 < text.utf8ByteSize
    · have outside : ¬text.toUTF8.size ≤ Cell.size := Nat.not_le.mpr long
      rw [List.filter_cons_of_pos (by simpa using long), List.sum_cons]
      simp only [outside, decide_false, Bool.false_eq_true, if_false]
      rfl
    · have inside : text.toUTF8.size ≤ Cell.size := Nat.not_lt.mp long
      rw [List.filter_cons_of_neg (by simpa using long)]
      simp only [inside, decide_true, if_true, ByteArray.size_empty, Nat.zero_add]

theorem add_padding (length : Nat) : length + Body.padding length = roundedUp length := by
  rw [Body.padding, roundedUp]
  omega

def strings {α : Type} [Framed α] (message : α) : List String :=
  (Framed.record message).id :: (Framed.record message).texts

theorem bodySize_eq {α : Type} [Framed α] (message : α) :
    bodySize message = (Framed.layout α).rootSize + roundedUp (spilled (strings message)) := by
  show Body.heapSize ((strings message).map String.toUTF8) +
    Body.padding (Body.heapSize ((strings message).map String.toUTF8)) +
      (Framed.layout α).rootSize = _
  rw [heapSize_eq_spilled, add_padding, Nat.add_comm]

/-! ## Calls of a writer -/

namespace Sink

inductive Call
  | offer (bytes : List UInt8) (taken : Nat)
  | flush

def Call.accepted : Call → List UInt8
  | .offer bytes taken => bytes.take taken
  | .flush => []

/-- The calls that hand over some bytes, of which the sink takes none in the last one if it has no
room for all. -/
def offers (sink : Sink) (held : Nat) (bytes : List UInt8) : List Call :=
  if bytes.length = 0 then []
  else if sink.takes held bytes.length = 0 then [.offer bytes 0]
  else .offer bytes (sink.takes held bytes.length) ::
    sink.offers (held + sink.takes held bytes.length) (bytes.drop (sink.takes held bytes.length))
termination_by bytes.length
decreasing_by
  rw [List.length_drop]
  omega

def calls (sink : Sink) (held : Nat) : List (List UInt8) → List Call
  | [] => [.flush]
  | part :: rest =>
    let offers := sink.offers held part
    let taken := (offers.flatMap Call.accepted).length
    if taken = part.length then offers ++ sink.calls (held + taken) rest else offers

theorem accepted_offers (sink : Sink) (held : Nat) (bytes : List UInt8) :
    (sink.offers held bytes).flatMap Call.accepted = bytes.take (sink.space held bytes.length) := by
  fun_induction offers sink held bytes with
  | case1 held bytes nothing =>
    rw [List.eq_nil_of_length_eq_zero nothing, List.take_nil]
    rfl
  | case2 held bytes something none_taken =>
    rw [takes_eq_zero_iff.mp none_taken]
    rfl
  | case3 held bytes something some_taken ih =>
    have split := sink.space_eq_takes_add held bytes.length
    rw [List.flatMap_cons, ih, List.length_drop, split, List.take_add]
    rfl

theorem length_accepted_offers (sink : Sink) (held : Nat) (bytes : List UInt8) :
    ((sink.offers held bytes).flatMap Call.accepted).length = sink.space held bytes.length := by
  rw [accepted_offers, List.length_take, Nat.min_eq_left (sink.space_le ..)]

theorem flush_notMem_offers (sink : Sink) (held : Nat) (bytes : List UInt8) :
    Call.flush ∉ sink.offers held bytes := by
  fun_induction offers sink held bytes with
  | case1 held bytes nothing => exact List.not_mem_nil
  | case2 held bytes something none_taken => simp
  | case3 held bytes something some_taken ih => simpa using ih

theorem accepted_calls (sink : Sink) (held : Nat) (parts : List (List UInt8)) :
    (sink.calls held parts).flatMap Call.accepted =
      parts.flatten.take (sink.space held parts.flatten.length) := by
  induction parts generalizing held with
  | nil => exact List.take_nil.symm
  | cons part rest ih =>
    rw [calls, List.flatten_cons, List.length_append, space_add, length_accepted_offers]
    split
    · rename_i whole
      rw [List.flatMap_append, ih, accepted_offers, whole, List.take_length,
        List.take_length_add_append]
    · rename_i cut
      rw [accepted_offers, List.take_append_of_le_length (sink.space_le ..)]

theorem calls_eq_offers_append (sink : Sink) (held : Nat) (parts : List (List UInt8)) :
    ∃ offers, Call.flush ∉ offers ∧ sink.calls held parts = offers ++
      if sink.space held parts.flatten.length = parts.flatten.length then [Call.flush] else [] := by
  induction parts generalizing held with
  | nil =>
    have nothing : sink.space held 0 = 0 := Nat.le_zero.mp (sink.space_le held 0)
    exact ⟨[], List.not_mem_nil, by rw [List.flatten_nil, List.length_nil, nothing]; rfl⟩
  | cons part rest ih =>
    have unflushed := sink.flush_notMem_offers held part
    rw [calls, List.flatten_cons, List.length_append, space_add, length_accepted_offers]
    split
    · rename_i whole
      obtain ⟨offers, later, split⟩ := ih (held + part.length)
      refine ⟨sink.offers held part ++ offers, ?_, ?_⟩
      · exact List.not_mem_append unflushed later
      · rw [whole, split, List.append_assoc]
        simp only [Nat.add_left_cancel_iff]
    · rename_i cut
      have within := sink.space_le held part.length
      refine ⟨sink.offers held part, unflushed, ?_⟩
      rw [if_neg (by omega), List.append_nil]

end Sink

/-! ## Frames -/

section
variable {α : Type} [Framed α]

def asked (sink : Sink) (held : Nat) (message : α) : List Sink.Call :=
  match encode message with
  | .error _ => []
  | .ok body => sink.calls held [wordBytes body.size, body.data.toList]

structure Handed (sink : Sink) (mode : Mode) (held : Nat) (message : α) (body : ByteArray) :
    Prop where
  accepted : (asked sink held message).flatMap Sink.Call.accepted =
    (write sink mode held message).1.data.toList
  front : (write sink mode held message).1.data.toList <+: wordBytes body.size ++ body.data.toList
  stands : (write sink mode held message).2.held = held + (write sink mode held message).1.size
  flush : ∃ offers, Sink.Call.flush ∉ offers ∧ asked sink held message = offers ++
    if (write sink mode held message).1.size = 4 + body.size then [Sink.Call.flush] else []
  flushed : (write sink mode held message).2.flushed = true ↔
    (write sink mode held message).1.size = 4 + body.size
  succeeds : (write sink mode held message).2.outcome = .ok () ↔
    (write sink mode held message).1.size = 4 + body.size ∧ sink.flushFault = none
  lossless : littleEndian (wordBytes body.size) = body.size ∧ body.size ≤ maxBody
  readable : (write sink mode held message).1.size = 4 + body.size →
    ∀ (source : Source) (reader : Mode) (given : Nat) (more : List UInt8), given ≤ source.reach →
      source.rest given = (write sink mode held message).1.data.toList ++ more →
      readFrame source reader given = (.message message, given + (4 + body.size))

structure PrefixSafe (sink : Sink) (mode : Mode) (held : Nat) (message : α) (size : Nat) :
    Prop where
  oversized : (∃ cause, encode message = .error cause) ↔ maxBody < size
  untouched : ∀ cause, encode message = .error cause → cause = .link (.oversized size) ∧
    asked sink held message = [] ∧
    write sink mode held message = (ByteArray.empty, ⟨held, false, .error cause⟩)
  sized : ∀ body, encode message = .ok body → body.size = size
  handed : ∀ body, encode message = .ok body → Handed sink mode held message body

variable {message : α} {body : ByteArray}

theorem toList_enclose (body : ByteArray) :
    (enclose body).data.toList = wordBytes body.size ++ body.data.toList := by
  rw [enclose, ByteArray.data_append, Array.toList_append, List.data_toByteArray]

theorem toList_write (encoded : encode message = .ok body) (sink : Sink) (mode : Mode)
    (held : Nat) :
    (write sink mode held message).1.data.toList =
      (wordBytes body.size ++ body.data.toList).take (sink.space held (4 + body.size)) := by
  rw [write_eq encoded, ByteArray.data_extract, Array.toList_extract, toList_enclose,
    List.extract_eq_take_drop, Nat.sub_zero, List.drop_zero]

theorem flatten_frame (body : ByteArray) : [wordBytes body.size, body.data.toList].flatten =
    wordBytes body.size ++ body.data.toList := by
  rw [List.flatten_cons, List.flatten_cons, List.flatten_nil, List.append_nil]

theorem length_frame (body : ByteArray) :
    (wordBytes body.size ++ body.data.toList).length = 4 + body.size := by
  rw [← toList_enclose, length_enclose]

theorem readFrame_enclose [LawfulFramed α] (encoded : encode message = .ok body) {source : Source}
    {given : Nat} (started : given ≤ source.reach) {more : List UInt8}
    (there : source.rest given = (enclose body).data.toList ++ more) (reader : Mode) :
    readFrame source reader given = (.message message, given + (4 + body.size)) := by
  have bounded := size_le_of_encode encoded
  have length := length_enclose body
  obtain ⟨first, behind⟩ := enclose_split body more
  have word := littleEndian_wordBytes bounded
  rw [readFrame_eq started, there, first, word, behind, if_neg (by rw [List.length_append]; omega)]
  dsimp only
  rw [if_neg (by omega), if_neg (by rw [List.length_append]; omega), List.take_left' (by simp),
    Item.ofBody_of_encode encoded]

theorem handed [LawfulFramed α] (encoded : encode message = .ok body) (sink : Sink) (mode : Mode)
    (held : Nat) : Handed sink mode held message body := by
  have bounded := size_le_of_encode encoded
  have calls : asked sink held message =
      sink.calls held [wordBytes body.size, body.data.toList] := by
    rw [asked, encoded]
  have within := sink.space_le held (4 + body.size)
  constructor
  case accepted =>
    rw [calls, sink.accepted_calls, flatten_frame, length_frame, toList_write encoded]
  case front =>
    rw [toList_write encoded]
    exact List.take_prefix ..
  case stands =>
    rw [size_write encoded, write_eq encoded, writeFrame_eq]
  case flush =>
    obtain ⟨offers, unflushed, split⟩ :=
      sink.calls_eq_offers_append held [wordBytes body.size, body.data.toList]
    rw [flatten_frame, length_frame] at split
    rw [size_write encoded, calls]
    exact ⟨offers, unflushed, split⟩
  case flushed =>
    rw [size_write encoded, write_eq encoded, writeFrame_eq]
    exact decide_eq_true_iff
  case succeeds =>
    rw [size_write encoded, write_eq encoded, writeFrame_eq]
    exact Sink.verdict_eq_ok_iff within
  case lossless =>
    exact ⟨littleEndian_wordBytes bounded, bounded⟩
  case readable =>
    intro whole source reader given more started there
    apply readFrame_enclose encoded started _ reader
    · exact more
    · rw [size_write encoded] at whole
      rw [there, toList_write encoded, whole, ← length_frame, List.take_length, toList_enclose]

theorem prefixSafe [LawfulFramed α] (sink : Sink) (mode : Mode) (held : Nat) (message : α)
    {size : Nat} (sized : bodySize message = size) : PrefixSafe sink mode held message size := by
  subst sized
  constructor
  case oversized =>
    rw [encode]
    split
    · rename_i large
      exact iff_of_true ⟨_, rfl⟩ large
    · rename_i small
      apply iff_of_false _ small
      rintro ⟨cause, failed⟩
      cases failed
  case untouched =>
    intro cause unframed
    refine ⟨?_, by rw [asked, unframed], write_oversized unframed sink mode held⟩
    rw [encode] at unframed
    split at unframed
    · exact (Except.error.inj unframed).symm
    · cases unframed
  case sized =>
    intro body encoded
    exact ((LawfulFramed.roundTrips α).sized message body encoded).1
  case handed =>
    intro body encoded
    exact handed encoded sink mode held

end

theorem bodySize_request (request : Request) :
    bodySize request = 20 + roundedUp (spilled request.strings) := by
  obtain ⟨id, kind⟩ := request
  cases kind <;> exact bodySize_eq _

theorem bodySize_response (response : Response) :
    bodySize response = 28 + roundedUp (spilled response.strings) := by
  obtain ⟨id, kind⟩ := response
  cases kind <;> exact bodySize_eq _

/-- In whatever pieces the sink takes bytes and wherever it fails: a message that is too large
leaves it alone, and of any other it gets a front part of the frame, which is all of it if the
write succeeds, and which readers then accept. -/
theorem writes_prefix_safe (sink : Sink) (mode : Mode) (held : Nat) :
    (∀ request : Request,
      PrefixSafe sink mode held request (20 + roundedUp (spilled request.strings))) ∧
    (∀ response : Response,
      PrefixSafe sink mode held response (28 + roundedUp (spilled response.strings))) := by
  constructor
  · intro request
    exact prefixSafe sink mode held request (bodySize_request request)
  · intro response
    exact prefixSafe sink mode held response (bodySize_response response)

end Frame

end Sandbox

import Sandbox.Proofs.Frame.Sink
import Sandbox.Proofs.Frame.Split

namespace Sandbox.Frame

/-! ## What is left of written frames -/

section
variable {α : Type} [Framed α]

def complete : Nat → List α → List α
  | _, [] => []
  | cut, message :: rest =>
    if 4 + bodySize message ≤ cut then
      message :: complete (cut - (4 + bodySize message)) rest
    else []

def begun : Nat → List α → Nat
  | _, [] => 0
  | cut, message :: rest =>
    if 4 + bodySize message ≤ cut then begun (cut - (4 + bodySize message)) rest else cut

theorem complete_front (cut : Nat) (messages : List α) : complete cut messages <+: messages := by
  induction messages generalizing cut with
  | nil => exact List.prefix_refl _
  | cons message rest ih =>
    rw [complete]
    split
    · exact (List.prefix_cons_inj _).mpr (ih _)
    · exact List.nil_prefix

theorem span_complete (cut : Nat) (messages : List α) :
    span (complete cut messages) + begun cut messages = min cut (span messages) := by
  induction messages generalizing cut with
  | nil => exact (Nat.min_zero cut).symm
  | cons message rest ih =>
    rw [complete, begun, span_cons]
    split
    · have behind := ih (cut - (4 + bodySize message))
      rw [span_cons]
      omega
    · rw [span, List.map_nil, List.sum_nil]
      omega

theorem begun_lt {cut : Nat} {messages rest : List α} {message : α}
    (behind : messages = complete cut messages ++ message :: rest) :
    begun cut messages < 4 + bodySize message := by
  induction messages generalizing cut with
  | nil => simp at behind
  | cons first others ih =>
    rw [complete] at behind
    rw [begun]
    split at behind
    · rename_i whole
      rw [if_pos whole]
      exact ih (List.cons.inj behind).2
    · rename_i part
      rw [if_neg part]
      obtain ⟨rfl, -⟩ := List.cons.inj behind
      omega

theorem begun_eq_zero_iff {cut : Nat} {messages : List α} : begun cut messages = 0 ↔
    ∃ front, front <+: messages ∧ min cut (span messages) = span front := by
  constructor
  · intro nothing
    have total := span_complete cut messages
    rw [nothing, Nat.add_zero] at total
    exact ⟨_, complete_front cut messages, total.symm⟩
  · rintro ⟨front, part, boundary⟩
    induction messages generalizing cut front with
    | nil => rfl
    | cons message rest ih =>
      rw [begun]
      rw [span_cons] at boundary
      cases front with
      | nil =>
        rw [show span ([] : List α) = 0 from rfl] at boundary
        rw [if_neg (by omega)]
        omega
      | cons first front =>
        obtain ⟨rfl, before⟩ := List.cons_prefix_cons.mp part
        rw [span_cons] at boundary
        rw [if_pos (by omega)]
        exact ih front before (by omega)

/-! ## Dividing what is left -/

theorem littleEndian_wordBytes {n : Nat} (bounded : n ≤ maxBody) :
    littleEndian (wordBytes n) = n := by
  have small : n < 4294967296 := Nat.lt_of_le_of_lt bounded (by decide)
  simp only [wordBytes, littleEndian, UInt8.toNat_ofNat']
  omega

theorem enclose_split (body : ByteArray) (rest : List UInt8) :
    ((enclose body).data.toList ++ rest).take 4 = wordBytes body.size ∧
      ((enclose body).data.toList ++ rest).drop 4 = body.data.toList ++ rest := by
  have four : (wordBytes body.size).length = 4 := rfl
  rw [enclose, ByteArray.data_append, List.data_toByteArray, Array.toList_append, List.append_assoc]
  exact ⟨List.take_left' four, List.drop_left' four⟩

theorem length_enclose (body : ByteArray) :
    (enclose body).data.toList.length = 4 + body.size := by
  rw [Array.length_toList, ByteArray.size_data, size_enclose]

theorem divide_enclose {body : ByteArray} (bounded : body.size ≤ maxBody) (rest : List UInt8) :
    divide (α := α) ((enclose body).data.toList ++ rest) =
      (divide rest).push (.ofBody body.data.toList, 4 + body.size) := by
  have length := length_enclose body
  obtain ⟨first, behind⟩ := enclose_split body rest
  have word := littleEndian_wordBytes bounded
  rw [divide_whole (by rw [List.length_append]; omega) (by rw [first, word]; omega)
    (by rw [first, word, List.length_append]; omega), first, word, behind,
    List.drop_left' length, List.take_left' (by simp)]

theorem divide_enclose_cut {body : ByteArray} (bounded : body.size ≤ maxBody) {cut : Nat}
    (part : cut < 4 + body.size) (rest : List UInt8) :
    divide (α := α) (((enclose body).data.toList ++ rest).take cut) =
      ⟨[], if cut < 4 then .length else .body, cut⟩ := by
  have length : (((enclose body).data.toList ++ rest).take cut).length = cut := by
    rw [List.length_take, List.length_append, length_enclose]
    omega
  have word := littleEndian_wordBytes bounded
  split
  · rw [divide_short (by omega), length]
  · have first : (((enclose body).data.toList ++ rest).take cut).take 4 = wordBytes body.size := by
      rw [List.take_take, Nat.min_eq_left (by omega), (enclose_split body rest).1]
    rw [divide_cut (by omega) (by rw [first, word]; omega) (by rw [first, word]; omega), length]

theorem Item.ofBody_of_encode [LawfulFramed α] {message : α} {body : ByteArray}
    (encoded : encode message = .ok body) : Item.ofBody body.data.toList = .message message := by
  have same : body.data.toList.toByteArray = body := by
    apply ByteArray.ext
    rw [List.data_toByteArray, Array.toArray_toList]
  rw [ofBody, same, decode_encode encoded]

theorem Streams.divide_take [LawfulFramed α] {data : ByteArray} {messages : List α}
    (streams : Streams data messages) (cut : Nat) :
    divide (data.data.toList.take cut) =
      ⟨(complete cut messages).map fun message => (.message message, 4 + bodySize message),
        if begun cut messages < 4 then .length else .body, begun cut messages⟩ := by
  induction streams generalizing cut with
  | nil =>
    rw [ByteArray.data_empty, List.take_nil]
    exact divide_short (by decide)
  | @cons message body rest messages encoded streams ih =>
    have bounded := size_le_of_encode encoded
    have sized := ((LawfulFramed.roundTrips α).sized message body encoded).1
    have length := length_enclose body
    rw [ByteArray.data_append, Array.toList_append, complete, begun, ← sized]
    split
    · rw [List.take_append, List.take_of_length_le (by omega), divide_enclose bounded, length, ih,
        Item.ofBody_of_encode encoded, Division.push, List.map_cons, sized]
    · exact divide_enclose_cut bounded (by omega) _

/-! ## Streams that were written -/

def sent (writes : List (ByteArray × Written)) : ByteArray :=
  writes.foldr (fun write rest => write.1 ++ rest) ByteArray.empty

def delivered (sink : Sink) (mode : Mode) : Nat → List α → List α
  | _, [] => []
  | held, message :: rest =>
    let written := (write sink mode held message).2
    match written.outcome with
    | .ok () => message :: delivered sink mode written.held rest
    | .error _ => delivered sink mode written.held rest

def Untorn (sink : Sink) (mode : Mode) (held : Nat) (messages : List α) : Prop :=
  ∀ write ∈ writeEach sink mode held messages, write.2.outcome = .ok () ∨ write.1.size = 0

theorem streams_of_writeEach {sink : Sink} {mode : Mode} {held : Nat} {messages : List α}
    (untorn : Untorn sink mode held messages) :
    Streams (sent (writeEach sink mode held messages)) (delivered sink mode held messages) := by
  induction messages generalizing held with
  | nil => exact .nil
  | cons message rest ih =>
    rw [Untorn, writeEach] at untorn
    obtain ⟨now, later⟩ := List.forall_mem_cons.mp untorn
    have following := ih later
    rw [writeEach, sent, List.foldr_cons, ← sent, delivered]
    rcases encoding : encode message with cause | body
    · rw [write_oversized encoding] at following ⊢
      rwa [ByteArray.empty_append]
    · obtain ⟨unwritten, split, -, whole⟩ := write_cases encoding sink mode held
      rcases outcome : (write sink mode held message).2.outcome with cause | ⟨⟨⟩⟩
      · have nothing : (write sink mode held message).1.size = 0 := by
          rcases now with succeeded | nothing
          · cases outcome.symm.trans succeeded
          · exact nothing
        rw [ByteArray.size_eq_zero_iff.mp nothing, ByteArray.empty_append]
        exact following
      · rw [whole outcome, ByteArray.append_empty] at split
        rw [split]
        exact .cons encoding following

theorem Sink.Unlimited.untorn {sink : Sink} (unlimited : sink.Unlimited) (mode : Mode)
    (held : Nat) (messages : List α) : Untorn sink mode held messages := by
  induction messages generalizing held with
  | nil => exact nofun
  | cons message rest ih =>
    refine List.forall_mem_cons.mpr ⟨?_, ih _⟩
    rcases encoding : encode message with cause | body
    · rw [write_oversized encoding]
      exact .inr rfl
    · rw [unlimited.write encoding]
      exact .inl rfl

theorem Sink.Unlimited.delivered {sink : Sink} (unlimited : sink.Unlimited) (mode : Mode)
    (held : Nat) {messages : List α} (small : ∀ message ∈ messages, bodySize message ≤ maxBody) :
    Frame.delivered sink mode held messages = messages := by
  induction messages generalizing held with
  | nil => rfl
  | cons message rest ih =>
    obtain ⟨first, others⟩ := List.forall_mem_cons.mp small
    rw [Frame.delivered, unlimited.write (encode_eq_ok.mpr ⟨first, rfl⟩)]
    exact congrArg _ (ih _ others)

/-! ## Reading up to the cut -/

def Item.atCut (left : Nat) : Item α :=
  if left < 4 then .finished else .failure (.link (.unread .body "early eof"))

def upTo (cut : Nat) (messages : List α) : List (Item α × Nat) :=
  ((complete cut messages).map fun message => (.message message, 4 + bodySize message)) ++
    [(.atCut (begun cut messages), begun cut messages)]

theorem sizes_upTo (cut : Nat) (messages : List α) :
    (sizes (upTo cut messages)).sum = min cut (span messages) := by
  rw [← span_complete, upTo, sizes, List.map_append, List.map_map, List.sum_append]
  rfl

theorem leading_upTo (cut : Nat) (messages : List α) (more : List (Item α × Nat)) :
    leading (upTo cut messages ++ more) = upTo cut messages := by
  have ends : ∀ left, (Item.atCut (α := α) left).continues = false := by
    intro left
    rw [Item.atCut]
    split <;> rfl
  rw [upTo, List.append_assoc]
  induction complete cut messages with
  | nil => simp [leading, ends]
  | cons message rest ih =>
    rw [List.map_cons, List.cons_append, leading, ih]
    rfl

theorem Source.rest_extract (stream : ByteArray) (cut : Nat) (pace : Nat → Nat) :
    Source.rest ⟨stream.extract 0 cut, pace, none⟩ 0 = stream.data.toList.take cut := by
  simp [rest, reach, ByteArray.data_extract, Array.toList_extract]

structure CutOff (stream : ByteArray) (messages : List α) (cut : Nat) (pace : Nat → Nat) :
    Prop where
  streams : Streams stream messages
  whole : complete cut messages <+: messages ∧
    span (complete cut messages) + begun cut messages = min cut stream.size
  partly : ∀ message rest, messages = complete cut messages ++ message :: rest →
    begun cut messages < 4 + bodySize message
  boundary : begun cut messages = 0 ↔
    ∃ front, front <+: messages ∧ min cut stream.size = span front
  reads : ∀ count, reads ⟨stream.extract 0 cut, pace, none⟩ .async count 0 =
    (upTo cut messages ++ List.replicate count (Item.finished, 0)).take count
  each : ∀ more,
    readEach ⟨stream.extract 0 cut, pace, none⟩ .async ((upTo cut messages).length + more) 0 =
      ((upTo cut messages).map Prod.fst, min cut stream.size)

variable [LawfulFramed α]

theorem Streams.reads_cut {stream : ByteArray} {messages : List α}
    (streams : Streams stream messages) (cut : Nat) (pace : Nat → Nat) (count : Nat) :
    reads ⟨stream.extract 0 cut, pace, none⟩ .async count 0 =
      (upTo cut messages ++ List.replicate count (Item.finished, 0)).take count := by
  have stopped : Item.stopped (α := α) .async
      (if begun cut messages < 4 then .length else .body) (Source.drained .async) =
        .atCut (begun cut messages) := by
    rw [Item.atCut]
    split <;> rfl
  rw [reads_eq (Nat.zero_le _), Source.rest_extract, streams.divide_take, Division.results]
  dsimp only [Source.ending]
  rw [stopped, upTo, List.append_assoc]
  rfl

theorem Streams.readEach_cut {stream : ByteArray} {messages : List α}
    (streams : Streams stream messages) (cut : Nat) (pace : Nat → Nat) (more : Nat) :
    Frame.readEach ⟨stream.extract 0 cut, pace, none⟩ .async ((upTo cut messages).length + more) 0 =
      ((upTo cut messages).map Prod.fst, min cut stream.size) := by
  have enough : (upTo cut messages ++ List.replicate ((upTo cut messages).length + more)
      (Item.finished, 0)).take ((upTo cut messages).length + more) =
        upTo cut messages ++ List.replicate more (Item.finished, 0) := by
    rw [List.take_length_add_append, List.take_replicate, Nat.min_eq_left (Nat.le_add_left ..)]
  rw [readEach_eq (Nat.zero_le _), streams.reads_cut, enough, leading_upTo, sizes_upTo,
    streams.size_eq, Nat.zero_add]

/-- Whatever was written and wherever the stream is cut off: readers find the messages whose frames
end before the cut, and then the end of the stream if less of a further frame is left than its
length takes, or an error if there is more. -/
theorem cut_streams_read (sink : Sink) (messages : List α) (untorn : Untorn sink .async 0 messages)
    (cut : Nat) (pace : Nat → Nat) :
    CutOff (sent (writeEach sink .async 0 messages)) (delivered sink .async 0 messages) cut pace := by
  have streams := streams_of_writeEach untorn
  refine ⟨streams, ⟨complete_front .., ?_⟩, fun _ _ => begun_lt, ?_, ?_, ?_⟩
  · rw [streams.size_eq]
    exact span_complete ..
  · rw [streams.size_eq]
    exact begun_eq_zero_iff
  · exact streams.reads_cut cut pace
  · exact streams.readEach_cut cut pace

end

def patient : Sink := ⟨fun _ => 3, none, .takesNothing, none⟩

theorem patient_unlimited : patient.Unlimited := ⟨rfl, rfl⟩

def pings : List Request := [⟨⟨"first"⟩, .ping⟩, ⟨⟨"second"⟩, .ping⟩]

theorem cut_streams_read_pings :
    Untorn patient .async 0 pings ∧
    CutOff (sent (writeEach patient .async 0 pings)) (delivered patient .async 0 pings) 40
      (fun _ => 5) ∧
    delivered patient .async 0 pings = pings ∧
    complete 40 pings = [⟨⟨"first"⟩, .ping⟩] ∧ begun 40 pings = 16 := by
  have untorn := patient_unlimited.untorn .async 0 pings
  exact ⟨untorn, cut_streams_read patient pings untorn 40 (fun _ => 5),
    patient_unlimited.delivered .async 0 (by decide), by decide, by decide⟩

/-- Two bytes of a length are read as the end of the stream. -/
theorem cut_length_reads_as_end :
    readEach (α := Request) ⟨(sent (writeEach patient .async 0 pings)).extract 0 2, fun _ => 1, none⟩
      .async 1 0 = ([.finished], 2) ∧
    ∀ front, front <+: pings → span front ≠ 2 := by
  have streams := streams_of_writeEach (patient_unlimited.untorn .async 0 pings)
  rw [patient_unlimited.delivered .async 0 (by decide)] at streams
  have each := streams.readEach_cut 2 (fun _ => 1) 0
  rw [streams.size_eq] at each
  refine ⟨each, ?_⟩
  intro front part boundary
  have nothing : begun 2 pings = 0 :=
    begun_eq_zero_iff.mpr ⟨front, part, boundary.symm ▸ rfl⟩
  exact absurd nothing (by decide)

end Sandbox.Frame

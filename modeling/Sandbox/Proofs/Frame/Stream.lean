import Sandbox.Proofs.Frame.Body
import Sandbox.Proofs.Frame.Source

namespace Sandbox.Frame

/-! ## Reading bytes that are there -/

theorem Source.readAll_within {data : ByteArray} {mode : Mode} {given wanted : Nat}
    (within : given + wanted ≤ data.size) :
    (Source.ofBytes data).readAll mode given wanted = (given + wanted, none) := by
  have started : given ≤ (Source.ofBytes data).reach := Nat.le_of_add_right_le within
  exact (readAll_eq started).trans (if_pos within)

theorem Source.readAll_drained {data : ByteArray} {mode : Mode} {given wanted : Nat}
    (drained : data.size ≤ given) (something : wanted ≠ 0) :
    ∃ reason, (Source.ofBytes data).readAll mode given wanted = (given, some (.ended reason)) := by
  have stops : ∃ reason, (Source.ofBytes data).stop? mode given = some (.ended reason) :=
    ⟨_, if_pos drained⟩
  obtain ⟨reason, stops⟩ := stops
  refine ⟨reason, ?_⟩
  rw [readAll, if_neg something]
  split
  · rename_i stopped
    rw [← stops, stopped]
  · rename_i goesOn
    cases goesOn.symm.trans stops

theorem Source.readAll_beyond {data : ByteArray} {mode : Mode} {given wanted : Nat}
    (beyond : data.size < given + wanted) (something : wanted ≠ 0) :
    ∃ stop reason,
      (Source.ofBytes data).readAll mode given wanted = (stop, some (.ended reason)) := by
  rcases Nat.lt_or_ge given data.size with left | drained
  · have started : given ≤ (Source.ofBytes data).reach := Nat.le_of_lt left
    exact ⟨_, _, (readAll_eq started).trans (if_neg (Nat.not_le.mpr beyond))⟩
  · exact ⟨given, readAll_drained drained something⟩

/-! ## Texts that are too long -/

theorem Body.size_le_heapSize {strings : List ByteArray} {string : ByteArray}
    (member : string ∈ strings) (long : Cell.size < string.size) :
    string.size ≤ heapSize strings := by
  have spilt : (Cell.spill string).size = string.size := by
    rw [Cell.spill, Cell.isInline, if_neg (by simpa using long)]
  induction strings with
  | nil => cases member
  | cons first rest ih =>
    rw [heapSize_cons]
    rcases List.mem_cons.mp member with rfl | later
    · omega
    · have := ih later
      omega

theorem encode_of_long {α : Type} [Framed α] {message : α} {text : String}
    (member : text ∈ (Framed.record message).texts) (long : maxBody < text.toUTF8.size) :
    encode message = .error (.link (.oversized (bodySize message))) := by
  rw [encode, if_pos]
  have spilt : text.toUTF8.size ≤
      Body.heapSize (((Framed.record message).id :: (Framed.record message).texts).map String.toUTF8) :=
    Body.size_le_heapSize (List.mem_map_of_mem (List.mem_cons_of_mem _ member))
      (Nat.lt_trans (by decide) long)
  rw [bodySize, Body.size]
  omega

/-! ## Frames -/

theorem size_enclose (body : ByteArray) : (enclose body).size = 4 + body.size := by
  rw [enclose, ByteArray.size_append, List.size_toByteArray]
  rfl

theorem extract_split (data : ByteArray) (middle : Nat) :
    data.extract 0 middle ++ data.extract middle data.size = data := by
  rw [ByteArray.extract_append_extract]
  simp

theorem Holds.of_cut {data rest part : ByteArray} {position : Nat}
    (holds : Holds (data ++ rest) position part) (within : position + part.size ≤ data.size) :
    Holds data position part := by
  obtain ⟨before, after, split, rfl⟩ := holds
  rw [← ByteArray.size_append] at within
  have whole : data.extract 0 (before ++ part).size ++
      (data.extract (before ++ part).size data.size ++ rest) = before ++ part ++ after := by
    rw [← ByteArray.append_assoc, extract_split, split]
  have sized : (data.extract 0 (before ++ part).size).size = (before ++ part).size := by
    rw [ByteArray.size_extract]
    omega
  obtain ⟨front, -⟩ := (ByteArray.append_eq_append_iff_of_size_eq_left sized).mp whole
  refine ⟨before, data.extract (before ++ part).size data.size, ?_, rfl⟩
  rw [← front, sized, extract_split]

section
variable {α : Type} [Framed α]

theorem readFrame_drained {data : ByteArray} {given : Nat} (drained : data.size ≤ given) :
    readFrame (α := α) (.ofBytes data) .async given = (.finished, given) := by
  obtain ⟨reason, stops⟩ : ∃ reason, (Source.ofBytes data).readAll .async given 4 =
      (given, some (.ended reason)) := Source.readAll_drained drained (by decide)
  simp only [readFrame, stops]

variable [LawfulFramed α]

theorem size_le_of_encode {body : ByteArray} {message : α} (encoded : encode message = .ok body) :
    body.size ≤ maxBody :=
  ((LawfulFramed.roundTrips α).sized message body encoded).2

theorem wordAt_of_encode {data body : ByteArray} {message : α} {given : Nat}
    (encoded : encode message = .ok body)
    (word : Holds data given (wordBytes body.size).toByteArray) : wordAt data given = body.size :=
  wordAt_of_holds (Nat.lt_of_le_of_lt (size_le_of_encode encoded) (by decide)) word

theorem arrived_of_held {data body : ByteArray} {message : α} {given : Nat}
    (held : Holds data given (enclose body)) (encoded : encode message = .ok body)
    (closed : Bool) : arrived data given closed = true := by
  have fits := held.size_le
  rw [size_enclose] at fits
  have length := wordAt_of_encode encoded held.left
  simp only [arrived, length, Bool.or_eq_true, Bool.and_eq_true, decide_eq_true_eq]
  omega

theorem readFrame_held {data body : ByteArray} {message : α} {mode : Mode} {given : Nat}
    (held : Holds data given (enclose body)) (encoded : encode message = .ok body) :
    readFrame (.ofBytes data) mode given = (.message message, given + (enclose body).size) := by
  have fits := held.size_le
  rw [size_enclose] at fits
  have bounded := size_le_of_encode encoded
  have length : wordAt (Source.ofBytes data).data given = body.size :=
    wordAt_of_encode encoded held.left
  have taken : (Source.ofBytes data).data.extract (given + 4) (given + 4 + body.size) = body :=
    held.right.extract
  simp only [readFrame, Source.readAll_within (show given + 4 ≤ data.size by omega), length,
    if_neg (Nat.not_lt.mpr bounded),
    Source.readAll_within (show given + 4 + body.size ≤ data.size by omega)]
  rw [taken, decode_encode encoded, size_enclose, Nat.add_assoc]

theorem readFrame_cut {data rest body : ByteArray} {message message' : α} {mode : Mode}
    {given stop : Nat} (held : Holds (data ++ rest) given (enclose body))
    (encoded : encode message = .ok body) (cut : data.size < given + (enclose body).size) :
    readFrame (.ofBytes data) mode given ≠ (.message message', stop) := by
  rw [size_enclose] at cut
  rcases Nat.lt_or_ge data.size (given + 4) with early | late
  · obtain ⟨given', reason, stops⟩ : ∃ stop reason, (Source.ofBytes data).readAll mode given 4 =
        (stop, some (.ended reason)) := Source.readAll_beyond early (by decide)
    simp only [readFrame, stops]
    cases mode <;> simp
  · have bounded := size_le_of_encode encoded
    have length : wordAt (Source.ofBytes data).data given = body.size :=
      wordAt_of_encode encoded (held.left.of_cut (by rw [List.size_toByteArray]; exact late))
    obtain ⟨given', reason, stops⟩ : ∃ stop reason, (Source.ofBytes data).readAll mode (given + 4)
        body.size = (stop, some (.ended reason)) := Source.readAll_beyond (by omega) (by omega)
    simp only [readFrame, Source.readAll_within late, length,
      if_neg (Nat.not_lt.mpr bounded), stops]
    simp

end

/-! ## Streams -/

section
variable {α : Type} [Framed α]

inductive Streams : ByteArray → List α → Prop
  | nil : Streams ByteArray.empty []
  | cons {message : α} {body rest : ByteArray} {messages : List α}
    (encoded : encode message = .ok body) (streams : Streams rest messages) :
    Streams (enclose body ++ rest) (message :: messages)

def span (messages : List α) : Nat := (messages.map fun message => 4 + bodySize message).sum

theorem span_cons (message : α) (rest : List α) :
    span (message :: rest) = 4 + bodySize message + span rest := by
  rw [span, List.map_cons, List.sum_cons, span]

theorem span_append (messages more : List α) : span (messages ++ more) = span messages + span more := by
  rw [span, List.map_append, List.sum_append, span, span]

theorem span_le {messages more : List α} (part : messages <+: more) : span messages ≤ span more := by
  obtain ⟨rest, rfl⟩ := part
  rw [span_append]
  exact Nat.le_add_right ..

namespace Streams

theorem append {data more : ByteArray} {messages further : List α} (streams : Streams data messages)
    (following : Streams more further) : Streams (data ++ more) (messages ++ further) := by
  induction streams with
  | nil => rwa [ByteArray.empty_append]
  | cons first streams ih =>
    rw [ByteArray.append_assoc]
    exact .cons first ih

theorem one {body : ByteArray} {message : α} (encoded : encode message = .ok body) :
    Streams (enclose body) [message] := by
  have last : Streams (enclose body ++ ByteArray.empty) [message] := .cons encoded .nil
  rwa [ByteArray.append_empty] at last

theorem concat {data body : ByteArray} {messages : List α} {message : α}
    (streams : Streams data messages) (encoded : encode message = .ok body) :
    Streams (data ++ enclose body) (messages ++ [message]) :=
  streams.append (.one encoded)

theorem encoded {data : ByteArray} {messages : List α} (streams : Streams data messages)
    {message : α} (member : message ∈ messages) : ∃ body, encode message = .ok body := by
  induction streams with
  | nil => cases member
  | cons encoded streams ih =>
    rcases List.mem_cons.mp member with rfl | later
    · exact ⟨_, encoded⟩
    · exact ih later

variable [LawfulFramed α]

theorem size_eq {data : ByteArray} {messages : List α} (streams : Streams data messages) :
    data.size = span messages := by
  induction streams with
  | nil => rfl
  | @cons message body rest messages encoded streams ih =>
    have sized := ((LawfulFramed.roundTrips α).sized message body encoded).1
    rw [ByteArray.size_append, size_enclose, sized, ih, span_cons]

theorem readEach {data : ByteArray} {messages : List α} (streams : Streams data messages)
    (front : ByteArray) :
    Frame.readEach (.ofBytes (front ++ data)) .async (messages.length + 1) front.size =
      (messages.map .message ++ [.finished], (front ++ data).size) := by
  induction streams generalizing front with
  | nil =>
    rw [ByteArray.append_empty, List.length_nil, Frame.readEach,
      readFrame_drained (Nat.le_refl front.size)]
    rfl
  | @cons message body rest messages encoded streams ih =>
    have held : Holds (front ++ (enclose body ++ rest)) front.size (enclose body) :=
      ⟨front, rest, by rw [ByteArray.append_assoc], rfl⟩
    have following := ih (front ++ enclose body)
    rw [ByteArray.append_assoc, ByteArray.size_append] at following
    rw [List.length_cons, Frame.readEach, readFrame_held held encoded]
    simp only [Item.continues, if_true, following, List.map_cons, List.cons_append]

theorem next {front back data rest : ByteArray} {messages : List α} (streams : Streams back messages)
    (cut : data ++ rest = front ++ back) {message : α} {stop : Nat}
    (read : readFrame (.ofBytes data) .async front.size = (.message message, stop)) :
    ∃ body back' messages', back = enclose body ++ back' ∧ messages = message :: messages' ∧
      encode message = .ok body ∧ Streams back' messages' ∧ stop = (front ++ enclose body).size := by
  cases streams with
  | nil =>
    have drained : data.size ≤ front.size := by
      have sizes := congrArg ByteArray.size cut
      simp only [ByteArray.size_append, ByteArray.size_empty] at sizes
      omega
    rw [readFrame_drained drained] at read
    cases read
  | @cons first body back' messages' encoded streams =>
    have held : Holds (data ++ rest) front.size (enclose body) :=
      ⟨front, back', by rw [cut, ByteArray.append_assoc], rfl⟩
    rcases Nat.lt_or_ge data.size (front.size + (enclose body).size) with early | late
    · exact absurd read (readFrame_cut held encoded early)
    · rw [readFrame_held (held.of_cut late) encoded] at read
      cases read
      exact ⟨body, back', messages', rfl, rfl, encoded, streams, by rw [ByteArray.size_append]⟩

theorem unique {data : ByteArray} {messages messages' : List α} (streams : Streams data messages)
    (streams' : Streams data messages') : messages = messages' := by
  induction streams generalizing messages' with
  | nil =>
    have none := streams'.size_eq
    cases messages' with
    | nil => rfl
    | cons message rest =>
      rw [span_cons, ByteArray.size_empty] at none
      omega
  | @cons message body rest messages encoded streams ih =>
    generalize whole : enclose body ++ rest = data at streams'
    cases streams' with
    | nil =>
      have sizes := congrArg ByteArray.size whole
      rw [ByteArray.size_append, size_enclose, ByteArray.size_empty] at sizes
      omega
    | @cons message' body' rest' messages' encoded' streams' =>
      have held : Holds (enclose body ++ rest) 0 (enclose body) := ⟨ByteArray.empty, rest, rfl, rfl⟩
      have held' : Holds (enclose body ++ rest) 0 (enclose body') :=
        ⟨ByteArray.empty, rest', by rw [whole, ByteArray.append_assoc, ByteArray.empty_append], rfl⟩
      have read : readFrame (.ofBytes (enclose body ++ rest)) .async 0 =
          (.message message, 0 + (enclose body).size) := readFrame_held held encoded
      obtain ⟨same, sizes⟩ := Prod.mk.inj (read.symm.trans (readFrame_held held' encoded'))
      obtain rfl : message = message' := Item.message.inj same
      rw [Nat.zero_add, Nat.zero_add] at sizes
      obtain ⟨-, rfl⟩ := (ByteArray.append_eq_append_iff_of_size_eq_left sizes).mp whole
      rw [ih streams']

theorem found {front back data rest : ByteArray} {messages : List α} (streams : Streams back messages)
    (cut : data ++ rest = front ++ back) (there : arrived data front.size false = true) :
    ∃ (message : α) (stop : Nat),
      readFrame (.ofBytes data) .async front.size = (.message message, stop) := by
  simp only [arrived, Bool.false_or, Bool.and_eq_true, Bool.or_eq_true, decide_eq_true_eq] at there
  obtain ⟨word, arrived⟩ := there
  cases streams with
  | nil =>
    have sizes := congrArg ByteArray.size cut
    simp only [ByteArray.size_append, ByteArray.size_empty] at sizes
    omega
  | @cons message body back' messages' encoded streams =>
    have held : Holds (data ++ rest) front.size (enclose body) :=
      ⟨front, back', by rw [cut, ByteArray.append_assoc], rfl⟩
    have bounded := size_le_of_encode encoded
    have length := wordAt_of_encode encoded (held.left.of_cut (by rw [List.size_toByteArray]; exact word))
    have whole : front.size + (enclose body).size ≤ data.size := by
      rw [size_enclose]
      omega
    exact ⟨message, _, readFrame_held (held.of_cut whole) encoded⟩

end Streams

end

end Sandbox.Frame

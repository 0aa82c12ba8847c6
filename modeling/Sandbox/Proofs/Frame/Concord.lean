import Sandbox.Proofs.Frame.Pieces

namespace Sandbox.Frame

inductive SameEnd (sink : Sink) : Except Failure Unit → Except Failure Unit → Prop
  | same (outcome : Except Failure Unit) : SameEnd sink outcome outcome
  | full (part : FramePart) (takesNothing : sink.full = .takesNothing) :
    SameEnd sink (.error (.link (.unwritten part "failed to write whole buffer")))
      (.error (.link (.unwritten part "write zero")))

structure SameWrite (sink : Sink) (blocking async : ByteArray × Written) : Prop where
  bytes : blocking.1 = async.1
  held : blocking.2.held = async.2.held
  flushed : blocking.2.flushed = async.2.flushed
  outcome : SameEnd sink blocking.2.outcome async.2.outcome

theorem SameEnd.unwritten (sink : Sink) (part : FramePart) :
    SameEnd sink (.error (.link (.unwritten part (Sink.reason .blocking sink.full))))
      (.error (.link (.unwritten part (Sink.reason .async sink.full)))) := by
  cases stops : sink.full with
  | refuses reason => exact .same _
  | takesNothing => exact .full part stops

theorem SameEnd.verdict (sink : Sink) (size taken : Nat) :
    SameEnd sink (sink.verdict .blocking size taken) (sink.verdict .async size taken) := by
  rw [Sink.verdict, Sink.verdict]
  split
  · exact .unwritten sink .length
  split
  · exact .unwritten sink .body
  · exact .same _

section
variable {α : Type} [Framed α]

theorem SameWrite.write (sink : Sink) (held : Nat) (message : α) :
    SameWrite sink (write sink .blocking held message) (write sink .async held message) := by
  cases encoding : encode message with
  | error cause =>
    rw [write_oversized encoding, write_oversized encoding]
    exact ⟨rfl, rfl, rfl, .same _⟩
  | ok body =>
    rw [write_eq encoding, write_eq encoding, writeFrame_eq, writeFrame_eq]
    exact ⟨rfl, rfl, rfl, .verdict sink body.size _⟩

theorem SameWrite.writeEach (sink : Sink) (held : Nat) (messages : List α) :
    List.Forall₂ (SameWrite sink) (writeEach sink .blocking held messages)
      (writeEach sink .async held messages) := by
  induction messages generalizing held with
  | nil => exact .nil
  | cons message rest ih =>
    have first := SameWrite.write sink held message
    rw [Frame.writeEach, Frame.writeEach, first.held]
    exact .cons first (ih _)

end

section
variable {α : Type} [Framed α]

inductive Item.Settled : Item α → Prop
  | message (value : α) : Settled (.message value)
  | codec (fault : CodecFault) : Settled (.failure (.codec fault))
  | oversized (bytes : Nat) : Settled (.failure (.link (.oversized bytes)))

theorem Item.Settled.ofBody (body : List UInt8) : Settled (α := α) (.ofBody body) := by
  rw [Item.ofBody, decode]
  split
  · exact .message _
  · rename_i cause undecoded
    split at undecoded
    · cases undecoded
    · obtain rfl := Except.error.inj undecoded
      exact .codec _

theorem settled_of_divide (bytes : List UInt8) :
    ∀ frame ∈ (divide (α := α) bytes).frames, frame.1.Settled := by
  induction bytes using divide.induct with
  | case1 bytes short => simp [divide_short short]
  | case2 bytes long length oversized ih =>
    rw [divide_oversized long oversized]
    exact List.forall_mem_cons.mpr ⟨.oversized _, ih⟩
  | case3 bytes long length bounded cut => simp [divide_cut long bounded cut]
  | case4 bytes long length bounded whole ih =>
    rw [divide_whole long bounded whole]
    exact List.forall_mem_cons.mpr ⟨.ofBody _, ih⟩

end

inductive SameRead {α : Type} (source : Source) : Item α → Item α → Prop
  | message (value : α) : SameRead source (.message value) (.message value)
  | codec (fault : CodecFault) :
    SameRead source (.failure (.codec fault)) (.failure (.codec fault))
  | oversized (bytes : Nat) :
    SameRead source (.failure (.link (.oversized bytes))) (.failure (.link (.oversized bytes)))
  | failed (part : FramePart) {reason : String}
    (fails : ∀ mode, source.ending mode = .failed reason) :
    SameRead source (.failure (.link (.unread part reason)))
      (.failure (.link (.unread part reason)))
  | length {reason : String} (ends : source.ending .blocking = .ended reason) :
    SameRead source (.failure (.link (.unread .length reason))) .finished
  | body {reason reason' : String} (ends : source.ending .blocking = .ended reason)
    (ends' : source.ending .async = .ended reason') :
    SameRead source (.failure (.link (.unread .body reason)))
      (.failure (.link (.unread .body reason')))

theorem Source.ending_cases (source : Source) :
    (∃ reason, ∀ mode, source.ending mode = .failed reason) ∨
    ∃ reason reason', source.ending .blocking = .ended reason ∧
      source.ending .async = .ended reason' := by
  have drained : ∃ reason reason', drained .blocking = .ended reason ∧
      drained .async = .ended reason' := ⟨_, _, rfl, rfl⟩
  unfold ending
  cases source.fault with
  | none => exact .inr drained
  | some fault =>
    obtain ⟨limit, fault⟩ := fault
    dsimp only
    split
    · cases fault with
      | failed reason => exact .inl ⟨reason, fun _ => rfl⟩
      | ended reason => exact .inr ⟨reason, reason, rfl, rfl⟩
    · exact .inr drained

namespace SameRead

variable {α : Type} {source : Source}

theorem stopped (source : Source) (part : FramePart) :
    SameRead (α := α) source (.stopped .blocking part (source.ending .blocking))
      (.stopped .async part (source.ending .async)) := by
  rcases source.ending_cases with ⟨reason, fails⟩ | ⟨reason, reason', ends, ends'⟩
  · rw [fails, fails]
    cases part <;> exact .failed _ fails
  · rw [ends, ends']
    cases part with
    | length => exact .length ends
    | body => exact .body ends ends'

theorem of_settled {item : Item α} (settled : item.Settled) : SameRead source item item := by
  cases settled with
  | message value => exact .message value
  | codec fault => exact .codec fault
  | oversized bytes => exact .oversized bytes

theorem continues {blocking async : Item α} (alike : SameRead source blocking async) :
    blocking.continues = async.continues := by
  cases alike <;> rfl

theorem eq_of_unended {blocking async : Item α} (alike : SameRead source blocking async)
    (unended : ∀ reason, source.ending .blocking ≠ .ended reason) : blocking = async := by
  cases alike with
  | message | codec | oversized | failed => rfl
  | length ends | body ends => exact absurd ends (unended _)

variable [Framed α] {given : Nat}

theorem readFrame (started : given ≤ source.reach) :
    SameRead (α := α) source (readFrame source .blocking given).1
        (readFrame source .async given).1 ∧
      (Frame.readFrame (α := α) source .blocking given).2 =
        (Frame.readFrame (α := α) source .async given).2 := by
  rw [readFrame_eq started, readFrame_eq started]
  split
  · exact ⟨stopped source .length, rfl⟩
  dsimp only
  split
  · exact ⟨of_settled (.oversized _), rfl⟩
  split
  · exact ⟨stopped source .body, rfl⟩
  · exact ⟨of_settled (.ofBody _), rfl⟩

theorem reads (started : given ≤ source.reach) (count : Nat) :
    List.Forall₂ (fun blocking async => SameRead source blocking.1 async.1 ∧ blocking.2 = async.2)
      (reads (α := α) source .blocking count given) (reads source .async count given) := by
  induction count generalizing given with
  | zero => exact .nil
  | succ count ih =>
    obtain ⟨alike, stops⟩ := readFrame (α := α) started
    have within := (readFrame_stop (α := α) .async started).2
    simp only [Frame.reads, stops]
    exact .cons ⟨alike, rfl⟩ (ih within)

theorem readEach (started : given ≤ source.reach) (count : Nat) :
    List.Forall₂ (SameRead source) (readEach (α := α) source .blocking count given).1
        (readEach source .async count given).1 ∧
      (Frame.readEach (α := α) source .blocking count given).2 =
        (Frame.readEach (α := α) source .async count given).2 := by
  induction count generalizing given with
  | zero => exact ⟨.nil, rfl⟩
  | succ count ih =>
    obtain ⟨alike, stops⟩ := readFrame (α := α) started
    have within := (readFrame_stop (α := α) .async started).2
    obtain ⟨later, taken⟩ := ih within
    simp only [Frame.readEach, stops, alike.continues]
    split
    · exact ⟨.cons alike later, taken⟩
    · exact ⟨.cons alike .nil, rfl⟩

end SameRead

structure SameReads (α : Type) [Framed α] (source : Source) : Prop where
  reads : ∀ count, List.Forall₂
    (fun blocking async => SameRead source blocking.1 async.1 ∧ blocking.2 = async.2)
    (reads (α := α) source .blocking count 0) (reads source .async count 0)
  each : ∀ count, List.Forall₂ (SameRead source) (readEach (α := α) source .blocking count 0).1
    (readEach source .async count 0).1 ∧
    (readEach (α := α) source .blocking count 0).2 = (readEach (α := α) source .async count 0).2
  divided : ∃ division : Division α, (∀ frame ∈ division.frames, frame.1.Settled) ∧
    (sizes division.frames).sum + division.left = source.reach ∧
    ∀ mode count, Frame.reads source mode count 0 =
      division.results mode (source.ending mode) count
  unended : (∀ reason, source.ending .blocking ≠ .ended reason) → ∀ count,
    Frame.reads (α := α) source .blocking count 0 = Frame.reads source .async count 0

/-- Whatever the sink or the source does: both writers put the same bytes into the sink and stop at
the same places, and both readers get the same of the same bytes until the stream ends. -/
theorem modes_agree (α : Type) [Framed α] :
    (∀ sink held (messages : List α), List.Forall₂ (SameWrite sink)
      (writeEach sink .blocking held messages) (writeEach sink .async held messages)) ∧
    ∀ source, SameReads α source := by
  constructor
  · exact SameWrite.writeEach
  intro source
  have started := Nat.zero_le source.reach
  constructor
  case reads => exact SameRead.reads started
  case each => exact SameRead.readEach started
  case divided =>
    have total := divide_length (α := α) (source.rest 0)
    rw [source.length_rest, Nat.sub_zero] at total
    exact ⟨divide (source.rest 0), settled_of_divide _, total, fun mode => reads_eq started⟩
  case unended =>
    intro unended count
    have alike := SameRead.reads (α := α) started count
    apply List.forall₂_eq_eq_eq ▸ alike.imp
    intro blocking async same
    exact Prod.ext (same.1.eq_of_unended unended) same.2

end Sandbox.Frame

import Sandbox.Context.Link
import Sandbox.Proofs.Frame.Sink
import Sandbox.Proofs.Worker.Answering

/-!
A worker process and its owner as one system. Posted requests are written to a pipe that may break off
anywhere, come over in pieces, and are read by the worker, whose answers the owner reads in turn. All
of them move in any order.
-/

namespace Sandbox.Context

open Client (Event)
open Sandbox.Frame (Sink)

/-! ## Writes -/

inductive Outlet.Sends (outlet : Outlet) (request : Request) :
    Except Failure Unit → ByteArray → List Event → Outlet → Prop
  | whole {body : ByteArray} (encoded : Frame.encode request = .ok body) :
    Sends outlet request (.ok ()) (Frame.enclose body) []
      ⟨outlet.held + (Frame.enclose body).size, false⟩
  | broken {body bytes rest : ByteArray} (encoded : Frame.encode request = .ok body)
    (part : bytes ++ rest = Frame.enclose body) (cause : Failure) :
    Sends outlet request (.error cause) bytes [.crashed cause.message]
      ⟨outlet.held + bytes.size, true⟩
  | oversized {cause : Failure} (unframed : Frame.encode request = .error cause) :
    Sends outlet request (.error cause) ByteArray.empty [.crashed cause.message]
      ⟨outlet.held, true⟩

theorem Outlet.sends {outlet : Outlet} (going : outlet.stopped = false) (pipe : Sink)
    (request : Request) :
    outlet.Sends request (Frame.write pipe .async outlet.held request).2.outcome
      (outlet.send pipe request).1 (outlet.send pipe request).2.1 (outlet.send pipe request).2.2 := by
  obtain ⟨held, stopped⟩ := outlet
  obtain rfl : stopped = false := going
  cases encoded : Frame.encode request with
  | error cause =>
    simp only [send, Frame.write_oversized encoded]
    exact .oversized encoded
  | ok body =>
    obtain ⟨rest, part, stands, whole⟩ := Frame.write_cases encoded pipe .async held
    simp only [send]
    generalize Frame.write pipe .async held request = wrote at part stands whole ⊢
    obtain ⟨bytes, held', flushed, outcome⟩ := wrote
    dsimp only at part stands whole ⊢
    subst stands
    obtain ⟨cause⟩ | ⟨⟨⟩⟩ := outcome
    · exact .broken encoded part cause
    · rw [whole rfl, ByteArray.append_empty] at part
      subst part
      exact .whole encoded

def success? : Request × Except Failure Unit → Option Request
  | (request, .ok ()) => some request
  | (_, .error _) => none

inductive Writes : Bool → List (Request × Except Failure Unit) → List Event → Prop
  | well {writes : List (Request × Except Failure Unit)} (fine : ∀ write ∈ writes, write.2 = .ok ()) :
    Writes false writes []
  | failed {writes : List (Request × Except Failure Unit)} (fine : ∀ write ∈ writes, write.2 = .ok ())
    (request : Request) (cause : Failure) :
    Writes true (writes ++ [(request, .error cause)]) [.crashed cause.message]

namespace Writes

variable {stopped : Bool} {writes : List (Request × Except Failure Unit)} {reports : List Event}

theorem all (going : Writes false writes reports) :
    writes.filterMap success? = writes.map Prod.fst := by
  obtain ⟨fine⟩ | _ := going
  rw [← List.filterMap_eq_map]
  refine List.filterMap_congr fun write member => ?_
  obtain ⟨request, outcome⟩ := write
  obtain rfl : outcome = .ok () := fine _ member
  rfl

theorem going (made : Writes stopped writes reports) (fine : ∀ write ∈ writes, write.2 = .ok ()) :
    stopped = false ∧ reports = [] := by
  cases made with
  | well fine => exact ⟨rfl, rfl⟩
  | failed fine' request cause =>
    cases fine (request, .error cause) (List.mem_append_right _ List.mem_cons_self)

theorem failure (made : Writes stopped writes reports) {request : Request} {cause : Failure}
    (member : (request, .error cause) ∈ writes) :
    stopped = true ∧ reports = [.crashed cause.message] ∧ ∃ earlier,
      writes = earlier ++ [(request, .error cause)] ∧ ∀ write ∈ earlier, write.2 = .ok () := by
  cases made with
  | well fine => cases fine _ member
  | @failed earlier fine request' cause' =>
    rcases List.mem_append.mp member with before | last
    · cases fine _ before
    · cases List.mem_singleton.mp last
      exact ⟨rfl, rfl, earlier, rfl, fine⟩

end Writes

namespace Outlet.Sends

variable {outlet after : Outlet} {request : Request} {outcome : Except Failure Unit}
  {bytes : ByteArray} {events : List Event}

theorem held (sends : outlet.Sends request outcome bytes events after) :
    after.held = outlet.held + bytes.size := by
  cases sends <;> rfl

theorem writes (sends : outlet.Sends request outcome bytes events after)
    {writes : List (Request × Except Failure Unit)} {reports : List Event}
    (going : Writes false writes reports) :
    Writes after.stopped (writes ++ [(request, outcome)]) (reports ++ events) := by
  obtain ⟨fine⟩ | _ := going
  cases sends with
  | whole encoded =>
    refine .well fun write member => ?_
    rcases List.mem_append.mp member with earlier | last
    · exact fine write earlier
    · rw [List.mem_singleton.mp last]
  | broken encoded part cause => exact .failed fine request cause
  | @oversized cause unframed => exact .failed fine request cause

theorem frames (sends : outlet.Sends request outcome bytes events after) : ∃ more rest,
    Frame.Streams (bytes ++ rest) more ∧ (success? (request, outcome)).toList <+: more ∧
      more <+: [request] ∧ (after.stopped = false → rest = ByteArray.empty) := by
  cases sends with
  | @whole body encoded =>
    refine ⟨[request], ByteArray.empty, ?_, List.prefix_refl _, List.prefix_refl _, fun _ => rfl⟩
    rw [ByteArray.append_empty]
    exact .one encoded
  | @broken body bytes rest encoded part cause =>
    exact ⟨[request], rest, part ▸ .one encoded, List.nil_prefix, List.prefix_refl _, nofun⟩
  | oversized unframed =>
    exact ⟨[], ByteArray.empty, .nil, List.nil_prefix, List.nil_prefix, nofun⟩

theorem within (sends : outlet.Sends request outcome bytes events after) :
    Frame.span (success? (request, outcome)).toList ≤ bytes.size := by
  cases sends with
  | whole encoded => exact Nat.le_of_eq (Frame.Streams.one encoded).size_eq.symm
  | broken encoded part cause => exact Nat.zero_le _
  | oversized unframed => exact Nat.zero_le _

theorem success (sends : outlet.Sends request outcome bytes events after)
    (going : after.stopped = false) : success? (request, outcome) = some request := by
  cases sends with
  | whole encoded => rfl
  | broken encoded part cause => cases going
  | oversized unframed => cases going

end Outlet.Sends

/-! ## The system -/

/-- The owner's side, the bytes that are on their way, and the worker. The other parts keep what has
happened so far: the requests that were queued, the bytes that the pipe took, which requests were
written and how that ended, what was reported of it, the requests that the worker's reader passed on,
and what was heard of the worker. -/
structure Line where
  queue : List Request := []
  outlet : Outlet := {}
  transit : ByteArray := ByteArray.empty
  worker : Worker.State := {}
  inlet : Inlet := {}
  posted : List Request := []
  sent : ByteArray := ByteArray.empty
  writes : List (Request × Except Failure Unit) := []
  reports : List Event := []
  handed : List Request := []
  told : List Event := []

namespace Line

def post (line : Line) (request : Request) : Line :=
  if line.outlet.stopped then line
  else { line with queue := line.queue ++ [request], posted := line.posted ++ [request] }

def send (line : Line) (pipe : Sink) : Line :=
  match line.queue with
  | [] => line
  | request :: queue =>
    let (bytes, events, outlet) := line.outlet.send pipe request
    let outcome := (Frame.write pipe .async line.outlet.held request).2.outcome
    { line with
      queue
      outlet
      transit := line.transit ++ bytes
      sent := line.sent ++ bytes
      writes := line.writes ++ if line.outlet.stopped then [] else [(request, outcome)]
      reports := line.reports ++ events }

def written (line : Line) : List Request := line.writes.filterMap success?

def canTake (line : Line) : Bool :=
  !line.inlet.stopped && Frame.arrived line.worker.output line.inlet.taken line.worker.exit.isSome

def take (line : Line) : Line :=
  if line.canTake then
    let (events, inlet) := line.inlet.take (.ofBytes line.worker.output)
    { line with inlet, told := line.told ++ events }
  else line

theorem take_eq (line : Line) : ∃ inlet told, line.take = { line with inlet, told } := by
  rw [take]
  split
  · exact ⟨_, _, rfl⟩
  · exact ⟨line.inlet, line.told, rfl⟩

inductive Move
  | post (request : Request)
  | send (pipe : Sink)
  | carry (count : Nat)
  | hangUp
  | work (action : Worker.Action)
  | take

section
variable {σ : Type} (provider : Engine.Provider σ) (budget : Duration)

def work (line : Line) (w : σ) (action : Worker.Action) : Line × σ :=
  let (worker, engine) := Worker.step provider budget (line.worker, w) action
  ({ line with worker, handed := line.handed ++ (line.worker.takes? action).toList }, engine)

def step : Line × σ → Move → Line × σ
  | (line, w), .post request => (line.post request, w)
  | (line, w), .send pipe => (line.send pipe, w)
  | (line, w), .carry count =>
    let behind := line.transit.extract count line.transit.size
    { line with transit := behind }.work provider budget w (.feed (line.transit.extract 0 count))
  | (line, w), .hangUp =>
    if line.outlet.stopped ∧ line.transit = ByteArray.empty then line.work provider budget w .close
    else (line, w)
  | (line, w), .work action =>
    if action.fromHost then (line, w) else line.work provider budget w action
  | (line, w), .take => (line.take, w)

def run (start : Line × σ) (moves : List Move) : Line × σ := moves.foldl (step provider budget) start

theorem run_append (start : Line × σ) (first second : List Move) :
    run provider budget start (first ++ second) =
      run provider budget (run provider budget start first) second :=
  List.foldl_append

end

/-! ## What holds of every run -/

/-- What the pipe took is a front part of whole frames, and they all are of requests that were queued.
The worker has passed on some of these, and all that were written if its reader has stopped. -/
structure Sound (line : Line) : Prop where
  writes : Writes line.outlet.stopped line.writes line.reports
  queued : line.writes.map Prod.fst <+: line.posted ∧
    (line.outlet.stopped = false → line.written ++ line.queue = line.posted)
  held : line.outlet.held = line.sent.size
  arrived : line.worker.input ++ line.transit = line.sent
  closed : line.worker.closed = true → line.outlet.stopped = true ∧ line.transit = ByteArray.empty
  stream : ∃ requests rest, Frame.Streams (line.sent ++ rest) requests ∧
    Worker.Reads (line.sent ++ rest) requests line.handed line.worker ∧
    line.written <+: requests ∧ requests <+: line.writes.map Prod.fst ∧
    (line.outlet.stopped = false → rest = ByteArray.empty)
  within : Frame.span line.written ≤ line.sent.size
  flows : ∃ framed, Worker.Flows line.handed framed line.worker
  ended : line.worker.reader ≠ .reading → line.worker.closed = true ∧ line.written <+: line.handed
  lives : line.worker.reader = .reading → line.worker.service.runner.halted = none →
    line.worker.exit = none

namespace Sound

variable {line : Line}

theorem begin : Sound {} := by
  refine ⟨.well nofun, ⟨List.nil_prefix, fun _ => rfl⟩, rfl, rfl, nofun, ?_, Nat.le_refl _, ⟨[], .begin⟩,
    fun stopped => absurd rfl stopped, fun _ _ => rfl⟩
  exact ⟨[], ByteArray.empty, .nil, ⟨ByteArray.empty, ByteArray.empty, [], rfl, .nil, rfl, fun _ => rfl⟩,
    List.nil_prefix, List.nil_prefix, fun _ => rfl⟩

theorem post (sound : Sound line) (request : Request) : Sound (line.post request) := by
  rw [Line.post]
  split
  · exact sound
  · obtain ⟨front, all⟩ := sound.queued
    refine ⟨sound.writes, ⟨front.trans (List.prefix_append ..), fun opened => ?_⟩, sound.held,
      sound.arrived, sound.closed, sound.stream, sound.within, sound.flows, sound.ended, sound.lives⟩
    rw [← all opened, List.append_assoc]
    rfl

theorem opened (sound : Sound line) (going : line.outlet.stopped = false) :
    line.worker.closed = false := by
  by_contra closed
  exact nomatch going.symm.trans (sound.closed (by simpa using closed)).1

theorem reading (sound : Sound line) (going : line.outlet.stopped = false) :
    line.worker.reader = .reading := by
  by_contra stopped
  cases (sound.opened going).symm.trans (sound.ended stopped).1

theorem going (sound : Sound line) (going : line.outlet.stopped = false) :
    Frame.Streams line.sent line.written ∧
      Worker.Reads line.sent line.written line.handed line.worker := by
  obtain ⟨requests, rest, streams, reads, least, most, whole⟩ := sound.stream
  obtain rfl := whole going
  have writes := sound.writes
  rw [going] at writes
  rw [← writes.all] at most
  obtain rfl : line.written = requests :=
    least.eq_of_length (Nat.le_antisymm least.length_le most.length_le)
  rw [ByteArray.append_empty] at streams reads
  exact ⟨streams, reads⟩

theorem send (sound : Sound line) (pipe : Sink) : Sound (line.send pipe) := by
  rw [Line.send]
  split
  · exact sound
  rename_i request queue next
  cases going : line.outlet.stopped with
  | true =>
    simp only [Outlet.send, going, if_true, ByteArray.append_empty, List.append_nil]
    exact ⟨sound.writes, ⟨sound.queued.1, fun opened => nomatch going.symm.trans opened⟩, sound.held,
      sound.arrived, sound.closed, sound.stream, sound.within, sound.flows, sound.ended, sound.lives⟩
  | false =>
    obtain ⟨streams, reads⟩ := sound.going going
    have writes := sound.writes
    rw [going] at writes
    have all : line.written = line.writes.map Prod.fst := writes.all
    have queued := sound.queued.2 going
    rw [next] at queued
    have sends := Outlet.sends going pipe request
    simp only [Bool.false_eq_true, if_false]
    generalize line.outlet.send pipe request = sent at sends ⊢
    generalize (Frame.write pipe .async line.outlet.held request).2.outcome = outcome at sends ⊢
    obtain ⟨bytes, events, after⟩ := sent
    dsimp only at sends ⊢
    obtain ⟨more, rest, following, least, most, whole⟩ := sends.frames
    have written : (line.writes ++ [(request, outcome)]).filterMap success? =
        line.written ++ (success? (request, outcome)).toList := by
      rw [List.filterMap_append]
      cases outcome <;> rfl
    refine ⟨sends.writes writes, ⟨?_, fun after_going => ?_⟩, ?_, ?_, fun closed => ?_, ?_, ?_,
      sound.flows, fun stopped => absurd (sound.reading going) stopped, sound.lives⟩
    · rw [List.map_append, ← all]
      exact ⟨queue, by rw [List.append_assoc]; exact queued⟩
    · rw [Line.written, written, sends.success after_going, List.append_assoc]
      exact queued
    · rw [sends.held, ByteArray.size_append, sound.held]
    · rw [← ByteArray.append_assoc, sound.arrived]
    · cases (sound.opened going).symm.trans closed
    · refine ⟨line.written ++ more, rest, ?_, ?_, ?_, ?_, whole⟩
      · rw [ByteArray.append_assoc]
        exact streams.append following
      · rw [ByteArray.append_assoc]
        exact reads.grow following
      · rw [Line.written, written]
        exact (List.prefix_append_right_inj _).mpr least
      · rw [List.map_append, ← all]
        exact (List.prefix_append_right_inj _).mpr most
    · rw [Line.written, written, Frame.span_append, ByteArray.size_append]
      exact Nat.add_le_add sound.within sends.within

theorem take (sound : Sound line) : Sound line.take := by
  rw [Line.take]
  split
  · exact ⟨sound.writes, sound.queued, sound.held, sound.arrived, sound.closed, sound.stream,
      sound.within, sound.flows, sound.ended, sound.lives⟩
  · exact sound

section
variable {σ : Type} (provider : Engine.Provider σ) (budget : Duration)

theorem carry (sound : Sound line) (w : σ) (count : Nat) :
    Sound (Line.step provider budget (line, w) (.carry count)).1 := by
  by_cases closed : line.worker.closed = true
  · -- Nothing is left behind a pipe that is closed.
    obtain ⟨-, empty⟩ := sound.closed closed
    have same : (Line.step provider budget (line, w) (.carry count)).1 = line := by
      obtain ⟨queue, outlet, transit, worker, inlet, posted, sent, writes, reports, handed, told⟩ := line
      obtain rfl : transit = ByteArray.empty := empty
      dsimp only at closed
      simp [Line.step, Line.work, Worker.step, closed, Worker.State.takes?]
    rwa [same]
  · obtain ⟨requests, rest, streams, reads, least, most, whole⟩ := sound.stream
    obtain ⟨framed, flows⟩ := sound.flows
    obtain ⟨more, flows'⟩ := flows.step provider budget w (.feed (line.transit.extract 0 count))
    have handed : line.handed ++ (line.worker.takes? (.feed (line.transit.extract 0 count))).toList =
        line.handed := List.append_nil _
    simp only [Line.step, Line.work, Worker.step, if_neg closed, handed] at flows' ⊢
    refine ⟨sound.writes, sound.queued, sound.held, ?_, fun shut => absurd shut closed,
      ⟨requests, rest, streams, reads.congr rfl rfl, least, most, whole⟩, sound.within, ⟨_, flows'⟩,
      sound.ended, sound.lives⟩
    rw [ByteArray.append_assoc, Frame.extract_split]
    exact sound.arrived

theorem hangUp (sound : Sound line) (w : σ) : Sound (Line.step provider budget (line, w) .hangUp).1 := by
  rw [Line.step]
  split
  · rename_i behind
    obtain ⟨stopped, empty⟩ := behind
    obtain ⟨requests, rest, streams, reads, least, most, whole⟩ := sound.stream
    obtain ⟨framed, flows⟩ := sound.flows
    obtain ⟨more, flows'⟩ := flows.step provider budget w .close
    have handed : line.handed ++ (line.worker.takes? .close).toList = line.handed := List.append_nil _
    simp only [Line.work, Worker.step, handed] at flows' ⊢
    exact ⟨sound.writes, sound.queued, sound.held, sound.arrived, fun _ => ⟨stopped, empty⟩,
      ⟨requests, rest, streams, reads.congr rfl rfl, least, most, whole⟩, sound.within, ⟨_, flows'⟩,
      fun ended => ⟨rfl, (sound.ended ended).2⟩, sound.lives⟩
  · exact sound

theorem ended_of_read (sound : Sound line) (stopped : (Worker.read line.worker).reader ≠ .reading) :
    line.worker.closed = true ∧ line.written <+: line.handed := by
  by_cases reading : line.worker.reader = .reading
  · obtain ⟨requests, rest, streams, reads, least, -, -⟩ := sound.stream
    have cut : line.worker.input ++ (line.transit ++ rest) = line.sent ++ rest := by
      rw [← ByteArray.append_assoc, sound.arrived]
    have closed : line.worker.closed = true := by
      by_contra opened
      exact stopped (reads.reading cut (eq_false_of_ne_true opened) reading)
    obtain ⟨-, empty⟩ := sound.closed closed
    have arrived := sound.arrived
    rw [empty, ByteArray.append_empty] at arrived
    refine ⟨closed, ?_⟩
    by_contra short
    obtain ⟨-, request, stop, found⟩ :=
      reads.found streams cut reading least (arrived ▸ sound.within) short
    exact stopped ((Worker.read_reader found).trans reading)
  · exact sound.ended reading

theorem work (sound : Sound line) (w : σ) (action : Worker.Action) (own : action.fromHost = false) :
    Sound (line.work provider budget w action).1 := by
  obtain ⟨requests, rest, streams, reads, least, most, whole⟩ := sound.stream
  obtain ⟨framed, flows⟩ := sound.flows
  obtain ⟨input, closed⟩ := (Worker.step_emits provider budget line.worker w action).input own
  obtain ⟨more, flows'⟩ := flows.step provider budget w action
  have cut : line.worker.input ++ (line.transit ++ rest) = line.sent ++ rest := by
    rw [← ByteArray.append_assoc, sound.arrived]
  have grown : line.handed <+: line.handed ++ (line.worker.takes? action).toList :=
    List.prefix_append ..
  have others : action ≠ .read →
      (Worker.step provider budget (line.worker, w) action).1.reader = line.worker.reader ∧
        (Worker.step provider budget (line.worker, w) action).1.taken = line.worker.taken :=
    (Worker.step_leaves provider budget line.worker w action).reader
  refine ⟨sound.writes, sound.queued, sound.held, ?_, ?_,
    ⟨requests, rest, streams, ?_, least, most, whole⟩, sound.within, ⟨_, flows'⟩, ?_, ?_⟩
  · exact (congrArg (· ++ line.transit) input).trans sound.arrived
  · exact fun shut => sound.closed (closed.symm.trans shut)
  · by_cases reads_on : action = .read
    · subst reads_on
      exact reads.read cut
    · obtain ⟨reader, position⟩ := others reads_on
      have silent : line.worker.takes? action = none := by
        cases action <;> first | rfl | exact absurd rfl reads_on
      simp only [Line.work, silent, Option.toList_none, List.append_nil]
      exact reads.congr reader position
  · intro stopped
    have ended : line.worker.closed = true ∧ line.written <+: line.handed := by
      by_cases reads_on : action = .read
      · subst reads_on
        exact sound.ended_of_read stopped
      · exact sound.ended fun reading => stopped ((others reads_on).1.trans reading)
    exact ⟨closed.trans ended.1, ended.2.trans grown⟩
  · intro reading running
    have before : line.worker.reader = .reading := by
      by_cases reads_on : action = .read
      · subst reads_on
        exact Worker.reading_of_read reading
      · exact (others reads_on).1.symm.trans reading
    exact Worker.step_lives provider budget flows before (sound.lives before) w own running

theorem step (sound : Sound line) (w : σ) (move : Move) :
    Sound (Line.step provider budget (line, w) move).1 := by
  cases move with
  | post request => exact sound.post request
  | send pipe => exact sound.send pipe
  | carry count => exact sound.carry provider budget w count
  | hangUp => exact sound.hangUp provider budget w
  | work action =>
    rw [Line.step]
    split
    · exact sound
    · exact sound.work provider budget w action (eq_false_of_ne_true ‹_›)
  | take => exact sound.take

theorem run (sound : Sound line) (w : σ) (moves : List Move) :
    Sound (Line.run provider budget (line, w) moves).1 := by
  induction moves generalizing line w with
  | nil => exact sound
  | cons move rest ih => exact ih (sound.step provider budget w move) _

end

end Sound

/-! ## What is heard -/

inductive Heard (output : ByteArray) (exit : Option Exit) : Inlet → List Event → Prop
  | hearing {front back : ByteArray} {responses unheard : List Response}
    (split : output = front ++ back) (streams : Frame.Streams front responses)
    (behind : Frame.Streams back unheard) :
    Heard output exit ⟨front.size, false⟩ (responses.map .response)
  | ended {taken : Nat} {responses : List Response} (streams : Frame.Streams output responses)
    (left : exit ≠ none) :
    Heard output exit ⟨taken, true⟩ (responses.map .response ++ [.crashed "worker exited"])

namespace Heard

variable {output : ByteArray} {exit : Option Exit} {inlet : Inlet} {told : List Event}

theorem grow (heard : Heard output exit inlet told) {exit' : Option Exit} {bytes : ByteArray}
    {more : List Response} (streams : Frame.Streams bytes more)
    (still : exit ≠ none → bytes = ByteArray.empty ∧ exit' ≠ none) :
    Heard (output ++ bytes) exit' inlet told := by
  cases heard with
  | hearing split front behind =>
    exact .hearing (by rw [split, ByteArray.append_assoc]) front (behind.append streams)
  | ended all left =>
    obtain ⟨rfl, left'⟩ := still left
    rw [ByteArray.append_empty]
    exact .ended all left'

theorem take (heard : Heard output exit inlet told) (going : inlet.stopped = false)
    (arrived : Frame.arrived output inlet.taken exit.isSome = true) :
    Heard output exit (inlet.take (.ofBytes output)).2
      (told ++ (inlet.take (.ofBytes output)).1) := by
  cases heard with
  | ended all left => cases going
  | @hearing front back responses unheard split streams behind =>
    cases behind with
    | nil =>
      rw [ByteArray.append_empty] at split
      subst split
      have left : exit ≠ none := by
        rintro rfl
        simp [Frame.arrived] at arrived
      simp only [Inlet.take, Bool.false_eq_true, if_false,
        Frame.readFrame_drained (Nat.le_refl output.size)]
      exact .ended streams left
    | @cons response body back unheard encoded behind =>
      have held : Frame.Holds output front.size (Frame.enclose body) :=
        ⟨front, back, by rw [split, ByteArray.append_assoc], rfl⟩
      simp only [Inlet.take, Bool.false_eq_true, if_false, Frame.readFrame_held held encoded]
      have told : (responses ++ [response]).map Event.response =
          responses.map .response ++ [.response response] := List.map_append
      rw [← told, ← ByteArray.size_append]
      exact .hearing (by rw [split, ByteArray.append_assoc]) (streams.concat encoded) behind

theorem report (heard : Heard output exit inlet told) {responses : List Response}
    (streams : Frame.Streams output responses) :
    told <+: responses.map .response ++ [.crashed "worker exited"] ∧
      (exit = none → told <+: responses.map .response) ∧
      ((!inlet.stopped && Frame.arrived output inlet.taken exit.isSome) = false →
        responses.map .response <+: told) := by
  cases heard with
  | @hearing front back heard unheard split streams' behind =>
    have all : Frame.Streams output (heard ++ unheard) := split ▸ streams'.append behind
    obtain rfl := streams.unique all
    rw [List.map_append]
    refine ⟨⟨_, (List.append_assoc ..).symm⟩, fun _ => List.prefix_append .., fun nothing => ?_⟩
    cases behind with
    | nil => rw [List.map_nil, List.append_nil]
    | @cons response body back unheard encoded behind =>
      have held : Frame.Holds output front.size (Frame.enclose body) :=
        ⟨front, back, by rw [split, ByteArray.append_assoc], rfl⟩
      simp [Frame.arrived_of_held held encoded] at nothing
  | ended all left =>
    obtain rfl := streams.unique all
    exact ⟨List.prefix_refl _, fun stays => absurd stays left, fun _ => List.prefix_append ..⟩

end Heard

def Listens (line : Line) : Prop :=
  Heard line.worker.output line.worker.exit line.inlet line.told

namespace Listens

variable {line : Line} {σ : Type} (provider : Engine.Provider σ) (budget : Duration)

theorem begin : Listens {} := .hearing rfl .nil .nil

theorem work (listens : Listens line) (w : σ) (action : Worker.Action) :
    Listens (line.work provider budget w action).1 := by
  obtain ⟨bytes, responses, output, streams, still⟩ :=
    (Worker.step_emits provider budget line.worker w action).output
  simp only [Listens, Line.work, output]
  refine Heard.grow listens streams fun left => ⟨still left, ?_⟩
  obtain ⟨exit, left⟩ := Option.ne_none_iff_exists'.mp left
  rw [Worker.step_stays provider budget left]
  exact Option.some_ne_none _

theorem take (listens : Listens line) : Listens line.take := by
  rw [Line.take]
  split
  · rename_i may
    simp only [canTake, Bool.and_eq_true, Bool.not_eq_true'] at may
    exact Heard.take listens may.1 may.2
  · exact listens

theorem step (listens : Listens line) (w : σ) (move : Move) :
    Listens (Line.step provider budget (line, w) move).1 := by
  cases move with
  | post request =>
    rw [Line.step, Line.post]
    split <;> exact listens
  | send pipe =>
    rw [Line.step, Line.send]
    split <;> exact listens
  | carry count =>
    let behind := line.transit.extract count line.transit.size
    have listens' : Listens { line with transit := behind } := listens
    exact listens'.work provider budget w _
  | hangUp =>
    rw [Line.step]
    split
    · exact listens.work provider budget w _
    · exact listens
  | work action =>
    rw [Line.step]
    split
    · exact listens
    · exact listens.work provider budget w _
  | take => exact listens.take

theorem run (listens : Listens line) (w : σ) (moves : List Move) :
    Listens (Line.run provider budget (line, w) moves).1 := by
  induction moves generalizing line w with
  | nil => exact listens
  | cons move rest ih => exact ih (listens.step provider budget w move) _

theorem take_last (listens : Listens line) (stays : line.worker.exit = none)
    {responses : List Response} {response : Response} (told : line.told = responses.map .response)
    (streams : Frame.Streams line.worker.output (responses ++ [response])) :
    line.take.told = (responses ++ [response]).map .response := by
  obtain ⟨-, -, all⟩ := Heard.report listens streams
  have may : line.canTake = true := by
    by_contra nothing
    have lengths := (all (eq_false_of_ne_true nothing)).length_le
    rw [told, List.length_map, List.length_map, List.length_append, List.length_singleton] at lengths
    omega
  obtain ⟨event, one⟩ : ∃ event, (line.inlet.take (.ofBytes line.worker.output)).1 = [event] := by
    simp only [canTake, Bool.and_eq_true, Bool.not_eq_true'] at may
    rw [Inlet.take, if_neg (by simp [may.1])]
    split <;> exact ⟨_, rfl⟩
  have worker : line.take.worker = line.worker := by rw [Line.take, if_pos may]
  have longer : line.take.told = responses.map .response ++ [event] := by
    rw [Line.take, if_pos may, ← told, ← one]
  obtain ⟨-, most, -⟩ := Heard.report listens.take (worker ▸ streams)
  refine (most (worker ▸ stays)).eq_of_length ?_
  rw [longer, List.length_append, List.length_map, List.length_map, List.length_append]
  rfl

end Listens

/-! ## What becomes of the requests -/

structure Rests (line : Line) : Prop where
  carried : line.transit = ByteArray.empty
  running : line.worker.service.runner.halted = none
  idle : Worker.canRead line.worker = false

/-- The worker passes on a front part of what was queued, and in the end everything that was written. A
write that fails is the last one, and is reported once. -/
structure Delivers (line : Line) : Prop where
  handed : line.handed <+: line.writes.map Prod.fst ∧ line.writes.map Prod.fst <+: line.posted
  rested : Rests line → line.written <+: line.handed
  fine : (∀ write ∈ line.writes, write.2 = .ok ()) → line.reports = [] ∧
    (line.queue = [] → Rests line → line.handed = line.posted)
  failed : ∀ request cause, (request, .error cause) ∈ line.writes →
    line.reports = [.crashed cause.message] ∧ ∃ earlier,
      line.writes = earlier ++ [(request, .error cause)] ∧ ∀ write ∈ earlier, write.2 = .ok ()

namespace Sound

variable {line : Line}

theorem handed (sound : Sound line) : line.handed <+: line.writes.map Prod.fst := by
  obtain ⟨requests, rest, -, ⟨front, back, unread, -, -, rfl, -⟩, -, most, -⟩ := sound.stream
  exact (List.prefix_append ..).trans most

theorem takes (sound : Sound line) (carried : line.transit = ByteArray.empty)
    (reading : line.worker.reader = .reading) (running : line.worker.service.runner.halted = none)
    (short : ¬line.written <+: line.handed) : ∃ request, line.worker.takes? .read = some request := by
  obtain ⟨requests, rest, streams, reads, least, -, -⟩ := sound.stream
  have arrived := sound.arrived
  rw [carried, ByteArray.append_empty] at arrived
  have cut : line.worker.input ++ rest = line.sent ++ rest := by rw [arrived]
  obtain ⟨there, request, stop, found⟩ :=
    reads.found streams cut reading least (arrived ▸ sound.within) short
  have may : Worker.canRead line.worker = true := by
    simp [Worker.canRead, reading, sound.lives reading running, running, there]
  exact ⟨request, by rw [Worker.State.takes?, if_pos may, found]⟩

theorem rested (sound : Sound line) (rests : Rests line) : line.written <+: line.handed := by
  by_cases reading : line.worker.reader = .reading
  · by_contra short
    obtain ⟨request, took⟩ := sound.takes rests.carried reading rests.running short
    rw [Worker.State.takes?, if_neg (by simp [rests.idle])] at took
    cases took
  · exact (sound.ended reading).2

theorem delivers (sound : Sound line) : Delivers line := by
  refine ⟨⟨sound.handed, sound.queued.1⟩, sound.rested, ?_, ?_⟩
  · intro fine
    obtain ⟨going, silent⟩ := sound.writes.going fine
    refine ⟨silent, fun sent rests => ?_⟩
    have all := sound.queued.2 going
    rw [sent, List.append_nil] at all
    have most := sound.handed.trans sound.queued.1
    refine most.eq_of_length (Nat.le_antisymm most.length_le ?_)
    rw [← all]
    exact (sound.rested rests).length_le
  · intro request cause member
    exact (sound.writes.failure member).2

end Sound

/-! ## After a failure -/

structure Still (line line' : Line) : Prop where
  outlet : line'.outlet = line.outlet
  posted : line'.posted = line.posted
  sent : line'.sent = line.sent
  writes : line'.writes = line.writes
  reports : line'.reports = line.reports

section
variable {σ : Type} (provider : Engine.Provider σ) (budget : Duration)

theorem step_still {line : Line} (stopped : line.outlet.stopped = true) (w : σ) (move : Move) :
    Still line (step provider budget (line, w) move).1 := by
  have same : Still line line := ⟨rfl, rfl, rfl, rfl, rfl⟩
  cases move with
  | post request =>
    rw [step, post, if_pos stopped]
    exact same
  | send pipe =>
    rw [step, send]
    split
    · exact same
    · simp only [Outlet.send, stopped, if_true, ByteArray.append_empty, List.append_nil]
      exact ⟨rfl, rfl, rfl, rfl, rfl⟩
  | carry count => exact ⟨rfl, rfl, rfl, rfl, rfl⟩
  | hangUp =>
    rw [step]
    split
    · exact ⟨rfl, rfl, rfl, rfl, rfl⟩
    · exact same
  | work action =>
    rw [step]
    split
    · exact same
    · exact ⟨rfl, rfl, rfl, rfl, rfl⟩
  | take =>
    rw [step, take]
    split
    · exact ⟨rfl, rfl, rfl, rfl, rfl⟩
    · exact same

theorem run_still {line : Line} (stopped : line.outlet.stopped = true) (w : σ) (moves : List Move) :
    Still line (run provider budget (line, w) moves).1 := by
  induction moves generalizing line w with
  | nil => exact ⟨rfl, rfl, rfl, rfl, rfl⟩
  | cons move rest ih =>
    have first := step_still provider budget stopped w move
    have later := ih (by rw [first.outlet, stopped]) (step provider budget (line, w) move).2
    exact ⟨later.outlet.trans first.outlet, later.posted.trans first.posted,
      later.sent.trans first.sent, later.writes.trans first.writes, later.reports.trans first.reports⟩

end

end Line

end Sandbox.Context

import Sandbox.Frame.Body

/-!
Frames on byte streams that take and give bytes in pieces and may fail. The blocking and the
asynchronous side differ only where a stream ends: in the words for it, and in that the
asynchronous reader takes an end within a length for the end of the stream.
-/

namespace Sandbox.Frame

inductive Mode
  | blocking
  | async
deriving DecidableEq

inductive Full
  | refuses (reason : String)
  | takesNothing
deriving DecidableEq

/-- A sink that holds `n` bytes takes at most `pace n` more at once, at least one, and has `room`
bytes in all. -/
structure Sink where
  pace : Nat → Nat
  room : Option Nat
  full : Full
  flushFault : Option String

namespace Sink

def takes (sink : Sink) (held offered : Nat) : Nat :=
  let piece := min offered (max 1 (sink.pace held))
  match sink.room with
  | some room => min piece (room - held)
  | none => piece

def reason (mode : Mode) : Full → String
  | .refuses reason => reason
  | .takesNothing => match mode with
    | .blocking => "failed to write whole buffer"
    | .async => "write zero"

/-- Writes until all bytes are taken: how many the sink then holds, and why it stopped early. -/
def writeAll (sink : Sink) (mode : Mode) (held offered : Nat) : Nat × Option String :=
  if offered = 0 then (held, none)
  else if sink.takes held offered = 0 then (held, some (reason mode sink.full))
  else sink.writeAll mode (held + sink.takes held offered) (offered - sink.takes held offered)
termination_by offered

end Sink

structure Written where
  held : Nat
  flushed : Bool
  outcome : Except Failure Unit

def writeFrame (sink : Sink) (mode : Mode) (held size : Nat) : Written :=
  match sink.writeAll mode held 4 with
  | (held, some reason) => ⟨held, false, .error (.link (.unwritten .length reason))⟩
  | (held, none) =>
    match sink.writeAll mode held size with
    | (held, some reason) => ⟨held, false, .error (.link (.unwritten .body reason))⟩
    | (held, none) =>
      match sink.flushFault with
      | some reason => ⟨held, true, .error (.link (.unflushed reason))⟩
      | none => ⟨held, true, .ok ()⟩

section
variable {α : Type} [Framed α]

def write (sink : Sink) (mode : Mode) (held : Nat) (message : α) : ByteArray × Written :=
  match encode message with
  | .error fault => (ByteArray.empty, ⟨held, false, .error fault⟩)
  | .ok body =>
    let written := writeFrame sink mode held body.size
    ((enclose body).extract 0 (written.held - held), written)

def writeEach (sink : Sink) (mode : Mode) : Nat → List α → List (ByteArray × Written)
  | _, [] => []
  | held, message :: rest =>
    let step := write sink mode held message
    step :: writeEach sink mode step.2.held rest

end

inductive ReadFault
  | failed (reason : String)
  | ended (reason : String)
deriving DecidableEq

/-- A source gives at most `pace n` bytes at once after `n`, at least one, and fails once it has
given as many as `fault` says. -/
structure Source where
  data : ByteArray
  pace : Nat → Nat
  fault : Option (Nat × ReadFault)

namespace Source

def ofBytes (data : ByteArray) : Source := ⟨data, fun _ => data.size, none⟩

def stop? (source : Source) (mode : Mode) (given : Nat) : Option ReadFault :=
  match source.fault with
  | some (limit, fault) => if limit ≤ given then some fault else drained? source mode given
  | none => drained? source mode given
where
  drained? (source : Source) (mode : Mode) (given : Nat) : Option ReadFault :=
    if source.data.size ≤ given then
      some (.ended (match mode with
        | .blocking => "failed to fill whole buffer"
        | .async => "early eof"))
    else none

def gives (source : Source) (given wanted : Nat) : Nat :=
  let piece := min wanted (min (max 1 (source.pace given)) (source.data.size - given))
  match source.fault with
  | some (limit, _) => min piece (limit - given)
  | none => piece

theorem gives_pos {source : Source} {mode : Mode} {given wanted : Nat}
    (goesOn : source.stop? mode given = none) (some_wanted : wanted ≠ 0) :
    0 < source.gives given wanted := by
  unfold stop? stop?.drained? at goesOn
  unfold gives
  grind

def readAll (source : Source) (mode : Mode) (given wanted : Nat) : Nat × Option ReadFault :=
  if wanted = 0 then (given, none)
  else match _h : source.stop? mode given with
    | some fault => (given, some fault)
    | none => source.readAll mode (given + source.gives given wanted)
        (wanted - source.gives given wanted)
termination_by wanted
decreasing_by
  have := gives_pos _h ‹_›
  omega

end Source

def ReadFault.reason : ReadFault → String
  | .failed reason | .ended reason => reason

inductive Item (α : Type)
  | message (value : α)
  | failure (cause : Failure)
  | finished

section
variable {α : Type} [Framed α]

def readFrame (source : Source) (mode : Mode) (given : Nat) : Item α × Nat :=
  match source.readAll mode given 4 with
  | (given, some (.failed reason)) => (.failure (.link (.unread .length reason)), given)
  | (given, some (.ended reason)) =>
    match mode with
    | .blocking => (.failure (.link (.unread .length reason)), given)
    | .async => (.finished, given)
  | (start, none) =>
    let length := wordAt source.data given
    if maxBody < length then (.failure (.link (.oversized length)), start)
    else match source.readAll mode start length with
      | (given, some fault) => (.failure (.link (.unread .body fault.reason)), given)
      | (stop, none) =>
        match decode (source.data.extract start stop) with
        | .ok message => (.message message, stop)
        | .error cause => (.failure cause, stop)

/-- Whether a read comes to an end with the bytes that are there, of a stream that may still grow
unless it is closed. -/
def arrived (data : ByteArray) (taken : Nat) (closed : Bool) : Bool :=
  closed || (taken + 4 ≤ data.size &&
    (maxBody < wordAt data taken || taken + 4 + wordAt data taken ≤ data.size))

def Item.continues : Item α → Bool
  | .message _ | .failure (.codec _) => true
  | _ => false

def readEach (source : Source) (mode : Mode) : Nat → Nat → List (Item α) × Nat
  | 0, given => ([], given)
  | count + 1, given =>
    let (item, given) := readFrame source mode given
    if item.continues then
      let (items, given) := readEach source mode count given
      (item :: items, given)
    else ([item], given)

end

end Sandbox.Frame

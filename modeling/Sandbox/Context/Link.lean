import Sandbox.Client.Basic
import Sandbox.Frame.Stream

namespace Sandbox.Context

open Client (Event)
open Sandbox.Frame (Sink Source)

structure Outlet where
  held : Nat := 0
  stopped : Bool := false
deriving DecidableEq

namespace Outlet

def send (pipe : Sink) (outlet : Outlet) (request : Request) : ByteArray × List Event × Outlet :=
  if outlet.stopped then (ByteArray.empty, [], outlet)
  else
    let (bytes, written) := Frame.write pipe .async outlet.held request
    match written.outcome with
    | .ok () => (bytes, [], { outlet with held := written.held })
    | .error cause => (bytes, [.crashed cause.message], ⟨written.held, true⟩)

def sendAll (pipe : Sink) : Outlet → List Request → ByteArray × List Event × Outlet
  | outlet, [] => (ByteArray.empty, [], outlet)
  | outlet, request :: rest =>
    let (bytes, events, outlet) := send pipe outlet request
    let (more, further, outlet) := sendAll pipe outlet rest
    (bytes ++ more, events ++ further, outlet)

end Outlet

structure Inlet where
  taken : Nat := 0
  stopped : Bool := false
deriving DecidableEq

namespace Inlet

def take (source : Source) (inlet : Inlet) : List Event × Inlet :=
  if inlet.stopped then ([], inlet)
  else match Frame.readFrame (α := Response) source .async inlet.taken with
    | (.message response, taken) => ([.response response], { inlet with taken })
    | (.finished, taken) => ([.crashed "worker exited"], ⟨taken, true⟩)
    | (.failure cause, taken) => ([.crashed cause.message], ⟨taken, true⟩)

/-- Takes the frames that are there, of a stream that may still grow unless it is closed. -/
def takeArrived (data : ByteArray) (closed : Bool) : Nat → Inlet → List Event × Inlet
  | 0, inlet => ([], inlet)
  | frames + 1, inlet =>
    if !inlet.stopped && Frame.arrived data inlet.taken closed then
      let (events, inlet) := take (.ofBytes data) inlet
      let (further, inlet) := takeArrived data closed frames inlet
      (events ++ further, inlet)
    else ([], inlet)

/-- Takes everything. A frame has four bytes at least, and the end of the stream comes once. -/
def takeAll (data : ByteArray) (closed : Bool) (inlet : Inlet) : List Event × Inlet :=
  takeArrived data closed ((data.size - inlet.taken) / 4 + 1) inlet

end Inlet

end Sandbox.Context

import Sandbox.Context.Link
import Sandbox.Program

/-!
A context in a process of its own. Posted requests wait in a queue until they are written to the
process. When nothing more is written, the process's input is closed. Destroying the context stops
everything and kills the process.
-/

namespace Sandbox.Context

open Client (Event)

/-- A running program: the worker with its engine, one that copies its input to its output until
that is closed, or one that has ended. -/
inductive Child
  | worker (state : Worker.State) (kit : Engine.Kit.State) (path : String)
      (library : Option (Engine.Library Engine.Kit.State)) (budget : Duration)
  | echo (output : ByteArray) (closed : Bool)
  | ended

namespace Child

def output : Child → ByteArray
  | .worker state _ _ _ _ => state.output
  | .echo output _ => output
  | .ended => ByteArray.empty

def hasEnded : Child → Bool
  | .worker state _ _ _ _ => state.exit.isSome
  | .echo _ closed => closed
  | .ended => true

def feed (child : Child) (bytes : ByteArray) : Child :=
  match child with
  | .worker state kit path library budget =>
    .worker { state with input := state.input ++ bytes } kit path library budget
  | .echo output closed => .echo (output ++ bytes) closed
  | .ended => .ended

def closeInput : Child → Child
  | .worker state kit path library budget =>
    .worker { state with closed := true } kit path library budget
  | .echo output _ => .echo output true
  | .ended => .ended

def round : Child → Child
  | .worker state kit path library budget =>
    let (state, kit) := Worker.round (Engine.Library.provider path library) budget state kit
    .worker state kit path library budget
  | child => child

end Child

structure Process where
  child : Child
  queue : List Request := []
  killed : Bool := false
  outlet : Outlet := {}
  inlet : Inlet := {}

namespace Process

def post (p : Process) (request : Request) : Except Failure Unit × Process :=
  if p.killed then (.error (.link .workerKilled), p)
  else if p.outlet.stopped then (.error (.link .workerStopped), p)
  else (.ok (), { p with queue := p.queue ++ [request] })

def kill (p : Process) : Process :=
  { p with
    child := .ended
    queue := []
    killed := true
    outlet := { p.outlet with stopped := true }
    inlet := { p.inlet with stopped := true } }

def isClosed (p : Process) : Bool := p.inlet.stopped && p.outlet.stopped

def pipe (p : Process) : Frame.Sink where
  pace _ := Frame.maxBody
  room := if p.child.hasEnded then some p.outlet.held else none
  full := .refuses "Broken pipe (os error 32)"
  flushFault := none

def write (p : Process) : List Event × Process :=
  let (bytes, events, outlet) := Outlet.sendAll p.pipe p.outlet p.queue
  let child := p.child.feed bytes
  (events, { p with
    child := if outlet.stopped then child.closeInput else child
    queue := []
    outlet })

def read (p : Process) : List Event × Process :=
  let (events, inlet) := p.inlet.takeAll p.child.output p.child.hasEnded
  (events, { p with inlet })

def round (p : Process) : List Event × Process :=
  let (first, p) := p.read
  let (second, p) := p.write
  let (third, p) := { p with child := p.child.round }.read
  (first ++ second ++ third, p)

end Process

end Sandbox.Context

import Sandbox.Budgets
import Sandbox.Frame.Stream
import Sandbox.Output
import Sandbox.Runner.Service

/-!
The worker process: a runner behind framed input and output. A reader queues the requests that it
finds in the input, the runner serves them, and a writer frames the answers. At the end of the
input the worker waits for the answers that are still due. An input that cannot be read ends it at
once, an answer that cannot be written only when the input ends; until then answers are lost.
-/

namespace Sandbox.Worker

open Runner (Service)

inductive Reader
  | reading
  | finished
  | failed (cause : Failure)
deriving DecidableEq

inductive Writer
  | writing
  | failed (cause : Failure)
deriving DecidableEq

structure State where
  input : ByteArray := ByteArray.empty
  taken : Nat := 0
  closed : Bool := false
  reader : Reader := .reading
  service : Service := Service.start {}
  writer : Writer := .writing
  output : ByteArray := ByteArray.empty
  exit : Option Exit := none

def canRead (s : State) : Bool :=
  s.reader = .reading ∧ s.exit = none ∧ s.service.runner.halted = none
    ∧ Frame.arrived s.input s.taken s.closed

def read (s : State) : State :=
  if canRead s then
    match Frame.readFrame (α := Request) (.ofBytes s.input) .async s.taken with
    | (.message request, taken) => { s with taken, service := s.service.post request }
    | (.finished, taken) => { s with taken, reader := .finished, service := s.service.close }
    | (.failure cause, taken) =>
      { s with taken, reader := .failed cause, service := s.service.close }
  else s

/-- The writer frames one answer. After an answer that cannot be framed nobody reads the others. -/
def write (s : State) : State :=
  match s.writer, s.exit, s.service.runner.halted, s.service.outbox with
  | .writing, none, none, response :: rest =>
    match Frame.encode response with
    | .ok body =>
      { s with output := s.output ++ Frame.enclose body, service := { s.service with outbox := rest } }
    | .error cause =>
      { s with writer := .failed cause, service := s.service.stopListening }
  | _, _, _, _ => s

def failed (summary : String) (cause : Failure) : Exit :=
  .code 1 (some ⟨summary, some cause.message⟩)

def ending? (s : State) : Option Exit :=
  match s.service.runner.halted with
  | some (.exits status) => some (.code status none)
  | some .killed => some .signal
  | some .spins => none
  | none =>
    if s.service.accepting then none
    else match s.reader, s.writer with
      | .reading, _ => none
      | .failed cause, _ => some (failed "Failed to read request from host" cause)
      | .finished, .failed cause => some (failed "Failed to write response to host" cause)
      | .finished, .writing =>
        if s.service.mayAnswer ∨ s.service.outbox ≠ [] then none else some (.code 0 none)

def leave (s : State) : State :=
  match s.exit with
  | some _ => s
  | none => { s with exit := ending? s }

def boot (env : Environment) : Except Failure BootstrapBudget := BootstrapBudget.ofEnvironment env

section
variable {σ : Type} (provider : Engine.Provider σ) (budget : Duration)

inductive Action
  | feed (bytes : ByteArray)
  | close
  | read
  | receive
  | poll (caller : Nat)
  | write
  | leave
  | deliver (slot : Nat) (mail : Engine.Mail)
  | advance (span : Duration)

def onService (s : State) (change : Service → Service) : State :=
  if s.exit.isSome then s else { s with service := change s.service }

def poll (s : State) (w : σ) (caller : Nat) : State × σ :=
  if s.exit.isSome then (s, w)
  else
    let (service, w) := s.service.poll provider budget w caller
    ({ s with service }, w)

def step : State × σ → Action → State × σ
  | (s, w), .feed bytes => (if s.closed then s else { s with input := s.input ++ bytes }, w)
  | (s, w), .close => ({ s with closed := true }, w)
  | (s, w), .read => (read s, w)
  | (s, w), .receive => (onService s Service.receive, w)
  | (s, w), .poll caller => poll provider budget s w caller
  | (s, w), .write => (write s, w)
  | (s, w), .leave => (leave s, w)
  | (s, w), .deliver slot mail =>
    (onService s (·.onRunner fun r => (Runner.deliver r slot mail).2), w)
  | (s, w), .advance span =>
    (onService s (·.onRunner fun r => { r with now := r.now + span }), w)

def run (start : State × σ) (actions : List Action) : State × σ :=
  actions.foldl (step provider budget) start

def readFor : Nat → State → State
  | 0, s => s
  | frames + 1, s => if canRead s then readFor frames (read s) else s

/-- Reads every frame that has arrived. A frame takes four bytes at least. -/
def readAll (s : State) : State := readFor ((s.input.size - s.taken) / 4 + 2) s

def writeAll (s : State) : State := Nat.repeat write s.service.outbox.length s

def round (s : State) (w : σ) : State × σ :=
  let s := readAll s
  if s.exit.isSome then (s, w)
  else
    let (service, w) := s.service.round provider budget w
    (leave (writeAll { s with service }), w)

end

end Sandbox.Worker

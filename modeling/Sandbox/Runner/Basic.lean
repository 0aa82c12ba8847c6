import Sandbox.Engine.Basic
import Sandbox.Message

/-!
The runner of a context. It starts the engine once and answers requests. Every call first needs the
outcome of the bootstrap: the first one that asks runs it, the others wait in line. When the call
that runs the bootstrap is cancelled, its slot is given up and the longest waiting call may start
another one. An outcome, once there, is final.

A call moves only when it is polled, and may be polled at any time; what happens to slots and to
the clock in between is up to the surroundings.
-/

namespace Sandbox.Runner

open Engine

inductive Status
  | initializing
  | ready
  | failed (message : String)
deriving DecidableEq

inductive Task
  | warmUp
  | answer (request : Request)
deriving DecidableEq

inductive Result
  | status (status : Status)
  | response (response : Response)
deriving DecidableEq

inductive Phase
  | active
  | finished (result : Result)
  | cancelled
deriving DecidableEq

structure Call where
  task : Task
  phase : Phase
deriving DecidableEq

structure Bootstrap where
  caller : Nat
  slot : Nat
  deadline : Duration
  mail : Option Mail
deriving DecidableEq

inductive Turn
  | free
  | granted (caller : Nat)
  | taken (bootstrap : Bootstrap)
deriving DecidableEq

/-- Calls are numbered in the order in which they were made, slots in the order of starts. -/
structure State where
  now : Duration := ⟨0⟩
  outcome : Option (Except String Nat) := none
  turn : Turn := .free
  queue : List Nat := []
  slots : Nat := 0
  calls : List Call := []
  halted : Option Halt := none

namespace State

def status (s : State) : Status :=
  match s.outcome with
  | none => .initializing
  | some (.ok _) => .ready
  | some (.error message) => .failed message

def setPhase (s : State) (caller : Nat) (phase : Phase) : State :=
  { s with calls := s.calls.modify caller fun call => { call with phase } }

def start (s : State) (task : Task) : Nat × State :=
  (s.calls.length, { s with calls := s.calls ++ [⟨task, .active⟩] })

end State

def mailOutcome : Mail → Except String Nat
  | .published engine => .ok engine
  | .dropped => .error "engine stopped before publishing its execute capability"

def timeoutMessage (budget : Duration) : String :=
  "engine did not publish its execute capability within " ++ toString budget.millis ++ "ms"

/-- What an execution answers; `none` if it never returns. -/
def responseKind? : Verdict → Option Response.Kind
  | .output streams => some (.result (streams.stdout.getD "") (streams.stderr.getD ""))
  | .error message => some (.failure message)
  | .panic payload => some (.failure ("engine panicked: " ++ payload.message))
  | .halt _ => none

section
variable {σ : Type} (provider : Provider σ) (budget : Duration)

/-- Carries out a call whose runner has an outcome. Execution does not end before the engine does:
one that never returns halts the runner. -/
def conclude (s : State) (w : σ) (caller : Nat) (task : Task) (outcome : Except String Nat) :
    State × σ :=
  match task, outcome with
  | .warmUp, _ => (s.setPhase caller (.finished (.status s.status)), w)
  | .answer ⟨id, _⟩, .error message =>
    (s.setPhase caller (.finished (.response ⟨id, .failure ("runner not ready: " ++ message)⟩)), w)
  | .answer ⟨id, .ping⟩, .ok _ => (s.setPhase caller (.finished (.response ⟨id, .ready⟩)), w)
  | .answer ⟨id, .run code⟩, .ok engine =>
    match provider.execute w engine code with
    | (.halt how, w) => ({ s with halted := some how }, w)
    | (verdict, w) => match responseKind? verdict with
      | some kind => (s.setPhase caller (.finished (.response ⟨id, kind⟩)), w)
      | none => (s, w)

def endBootstrap (s : State) (w : σ) (caller : Nat) (task : Task) (outcome : Except String Nat) :
    State × σ :=
  conclude provider { s with outcome := some outcome, turn := .free, queue := [] } w caller task
    outcome

def attend (s : State) (w : σ) (bootstrap : Bootstrap) (task : Task) : State × σ :=
  -- The slot is looked at first, the clock second.
  match bootstrap.mail with
  | some mail => endBootstrap provider s w bootstrap.caller task (mailOutcome mail)
  | none =>
    if bootstrap.deadline ≤ s.now then
      endBootstrap provider s w bootstrap.caller task (.error (timeoutMessage budget))
    else ({ s with turn := .taken bootstrap }, w)

def launch (s : State) (w : σ) (caller : Nat) (task : Task) : State × σ :=
  let (start, w) := provider.start w s.now s.slots
  let s := { s with slots := s.slots + 1 }
  match start.result with
  | .error message => endBootstrap provider s w caller task (.error message)
  | .ok () => attend provider budget s w ⟨caller, s.slots - 1, s.now + budget, start.mail⟩ task

def enqueue (s : State) (caller : Nat) : State :=
  if caller ∈ s.queue then s else { s with queue := s.queue ++ [caller] }

def poll (s : State) (w : σ) (caller : Nat) : State × σ :=
  match s.halted, s.calls[caller]? with
  | none, some ⟨task, .active⟩ =>
    match s.outcome, s.turn with
    | some outcome, _ => conclude provider s w caller task outcome
    | none, .free => launch provider budget s w caller task
    | none, .granted holder =>
      if holder = caller then launch provider budget s w caller task else (enqueue s caller, w)
    | none, .taken bootstrap =>
      if bootstrap.caller = caller then attend provider budget s w bootstrap task
      else (enqueue s caller, w)
  | _, _ => (s, w)

end

def passTurn (s : State) : State :=
  match s.queue with
  | [] => { s with turn := .free }
  | next :: rest => { s with turn := .granted next, queue := rest }

def holdsTurn (s : State) (caller : Nat) : Bool :=
  match s.turn with
  | .free => false
  | .granted holder => holder = caller
  | .taken bootstrap => bootstrap.caller = caller

def cancel (s : State) (caller : Nat) : State :=
  match s.calls[caller]? with
  | some ⟨_, .active⟩ =>
    let held := holdsTurn s caller
    let s := { s.setPhase caller .cancelled with queue := s.queue.erase caller }
    if held then passTurn s else s
  | _ => s

def deliver (s : State) (slot : Nat) (mail : Mail) : Bool × State :=
  match s.turn with
  | .taken bootstrap =>
    if bootstrap.slot = slot ∧ bootstrap.mail = none then
      (true, { s with turn := .taken { bootstrap with mail := some mail } })
    else (false, s)
  | _ => (false, s)

inductive Action
  | start (task : Task)
  | poll (caller : Nat)
  | cancel (caller : Nat)
  | deliver (slot : Nat) (mail : Mail)
  | advance (span : Duration)
deriving DecidableEq

def step {σ : Type} (provider : Provider σ) (budget : Duration) :
    State × σ → Action → State × σ
  | (s, w), .start task => ((s.start task).2, w)
  | (s, w), .poll caller => poll provider budget s w caller
  | (s, w), .cancel caller => (cancel s caller, w)
  | (s, w), .deliver slot mail => ((deliver s slot mail).2, w)
  | (s, w), .advance span => ({ s with now := s.now + span }, w)

def run {σ : Type} (provider : Provider σ) (budget : Duration) (start : State × σ)
    (actions : List Action) : State × σ :=
  actions.foldl (step provider budget) start

end Sandbox.Runner

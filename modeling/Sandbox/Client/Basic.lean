import Sandbox.Budgets
import Sandbox.Message

/-!
The client's state. It owns at most one live context, numbered by its generation, and a table of
pending records: which id is waited for, by which call, and for what. Whoever removes a record
settles the call that waits for it.
-/

namespace Sandbox.Client

inductive Reply
  | ready
  | output (streams : RunOutput)
deriving DecidableEq

structure Record where
  id : CorrelationId
  awaited : Awaited
  caller : Nat
deriving DecidableEq

structure Live where
  generation : Nat
  ready : Bool
deriving DecidableEq

/-- What a call asks for. Budgets that a run does not bring are the client's. -/
inductive Ask
  | ready (budget : Duration)
  | run (code : String) (budgets : Option Budgets)
deriving DecidableEq

/-- A call's wait for the record that it registered. Its reply arrives before the call takes it, and
the call notices that its time is up before it looks for its record; much may happen between. -/
structure Wait where
  awaited : Awaited
  id : CorrelationId
  budget : Duration
  deadline : Duration
  reply : Option (Except Failure Reply) := none
  expired : Bool := false

/-- A run is admitted from the moment it saw a ready context until it dispatches its snippet. -/
inductive Phase
  | admitted
  | waiting (wait : Wait)
  | finished (outcome : Except Failure (Option RunOutput))
  | cancelled

structure Call where
  ask : Ask
  phase : Phase

/-- Calls are numbered in the order in which they began. -/
structure State where
  now : Duration := ⟨0⟩
  live : Option Live := none
  generation : Nat := 0
  issued : Nat := 0
  pending : List Record := []
  calls : List Call := []
  dropped : Bool := false

structure Settings where
  budgets : Budgets := {}
  ids : Nat → CorrelationId

inductive Event
  | response (response : Response)
  | crashed (reason : String)
deriving DecidableEq

/-- Where contexts come from and how they are reached. Creation and posting may fail. The state
`σ` is that of the contexts themselves. -/
structure Contexts (σ : Type) where
  create : σ → Nat → Except Failure Unit × σ
  post : σ → Nat → Request → Except Failure Unit × σ
  destroy : σ → Nat → σ

namespace Ask

def readiness (settings : Settings) : Ask → Duration
  | .ready budget => budget
  | .run _ budgets => (budgets.getD settings.budgets).readiness

def execution (settings : Settings) : Ask → Duration
  | .ready budget => budget
  | .run _ budgets => (budgets.getD settings.budgets).execution

end Ask

namespace Phase

def isActive : Phase → Bool
  | .admitted | .waiting _ => true
  | .finished _ | .cancelled => false

def canProceed (now : Duration) : Phase → Bool
  | .admitted => true
  | .waiting wait => wait.expired || wait.reply.isSome || decide (wait.deadline ≤ now)
  | .finished _ | .cancelled => false

end Phase

namespace State

def isReady (s : State) : Bool := s.live.any Live.ready

def hasContext (s : State) : Bool := s.live.isSome

def pendingCount (s : State) : Nat := s.pending.length

def record? (s : State) (id : CorrelationId) : Option Record := s.pending.find? (·.id = id)

def removeRecord (s : State) (id : CorrelationId) : State :=
  { s with pending := s.pending.filter (·.id ≠ id) }

def phase? (s : State) (caller : Nat) : Option Phase := s.calls[caller]?.map Call.phase

def setPhase (s : State) (caller : Nat) (phase : Phase) : State :=
  { s with calls := s.calls.modify caller fun call => { call with phase } }

def finish (s : State) (caller : Nat) (outcome : Except Failure (Option RunOutput)) : State :=
  s.setPhase caller (.finished outcome)

def settle (s : State) (caller : Nat) (reply : Except Failure Reply) : State :=
  match s.phase? caller with
  | some (.waiting wait) => s.setPhase caller (.waiting { wait with reply := some reply })
  | _ => s

def settleAll (s : State) (records : List Record) (reply : Except Failure Reply) : State :=
  records.foldl (fun s record => s.settle record.caller reply) s

end State

end Sandbox.Client

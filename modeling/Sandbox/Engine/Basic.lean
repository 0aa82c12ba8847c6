import Sandbox.Failure

namespace Sandbox.Engine

structure Output where
  stdout : Option String
  stderr : Option String
deriving DecidableEq

inductive Payload
  | text (message : String)
  | other
deriving DecidableEq

def Payload.message : Payload → String
  | .text message => message
  | .other => "unknown panic payload"

inductive Halt
  | spins
  | exits (code : Nat)
  | killed
deriving DecidableEq

inductive Verdict
  | output (streams : Output)
  | error (message : String)
  | panic (payload : Payload)
  | halt (how : Halt)
deriving DecidableEq

inductive Mail
  | published (engine : Nat)
  | dropped
deriving DecidableEq

structure Start where
  mail : Option Mail
  result : Except String Unit

/-- Where engines come from: how one is started for a slot at a given time, and how a started one
executes. The state `σ` is whatever starts and executions leave behind. -/
structure Provider (σ : Type) where
  start : σ → Duration → Nat → Start × σ
  execute : σ → Nat → String → Verdict × σ

end Sandbox.Engine

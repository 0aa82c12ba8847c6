namespace Sandbox

/-- A length of time, kept to the nanosecond. An instant is the time passed since the start. -/
structure Duration where
  nanos : Nat
deriving DecidableEq

namespace Duration

def ofMillis (count : Nat) : Duration := ⟨count * 1000000⟩

def millis (span : Duration) : Nat := span.nanos / 1000000

instance : Add Duration := ⟨fun a b => ⟨a.nanos + b.nanos⟩⟩

instance : LE Duration := ⟨fun a b => a.nanos ≤ b.nanos⟩

instance (a b : Duration) : Decidable (a ≤ b) := Nat.decLe a.nanos b.nanos

@[simp] theorem millis_ofMillis (count : Nat) : (ofMillis count).millis = count := by
  simp [millis, ofMillis]

end Duration

inductive FramePart
  | length
  | body
deriving DecidableEq

def FramePart.name : FramePart → String
  | .length => "length"
  | .body => "body"

inductive Awaited
  | handshake
  | run
deriving DecidableEq

def Awaited.name : Awaited → String
  | .handshake => "Handshake"
  | .run => "Run"

inductive ConfigFault
  | notMillis (name value : String)
  | zero (name : String)
  | reported (text : String)
deriving DecidableEq

def ConfigFault.message : ConfigFault → String
  | .notMillis name value => name ++ " must be a whole number of milliseconds, got '" ++ value ++ "'"
  | .zero name => name ++ " must be greater than zero"
  | .reported text => text

inductive CodecFault
  | undecodable
  | reported (text : String)
deriving DecidableEq

def CodecFault.message : CodecFault → String
  | .undecodable => "Failed to decode IPC message"
  | .reported text => text

inductive LinkFault
  | oversized (bytes : Nat)
  | unwritten (part : FramePart) (reason : String)
  | unflushed (reason : String)
  | unread (part : FramePart) (reason : String)
  | mismatched (response : String) (awaited : Awaited)
  | readyReplyToRun
  | contextDestroyed
  | workerKilled
  | workerStopped
  | spawnFailed (program reason : String)
  | workerNotFound
  | reported (text : String)
deriving DecidableEq

def LinkFault.message : LinkFault → String
  | .oversized bytes => "IPC message too large: " ++ toString bytes ++ " bytes"
  | .unwritten part reason => "Failed to write IPC message " ++ part.name ++ ": " ++ reason
  | .unflushed reason => "Failed to flush IPC stream: " ++ reason
  | .unread part reason => "Failed to read IPC message " ++ part.name ++ ": " ++ reason
  | .mismatched response awaited =>
    "unexpected " ++ response ++ " response to a " ++ awaited.name ++ " request"
  | .readyReplyToRun => "unexpected Ready reply to a run request"
  | .contextDestroyed => "Context has been destroyed"
  | .workerKilled => "Worker has been killed"
  | .workerStopped => "Worker stopped accepting requests"
  | .spawnFailed program reason => "Failed to spawn worker process '" ++ program ++ "': " ++ reason
  | .workerNotFound =>
    "Could not find warden-worker binary. Set WARDEN_WORKER_PATH or ensure it's in PATH."
  | .reported text => text

inductive Failure
  | initTimeout (budget : Duration)
  | bootstrapFailure (message : String)
  | notReady
  | executionTimeout (budget : Duration)
  | executionFailure (message : String)
  | resetInterrupted
  | link (fault : LinkFault)
  | codec (fault : CodecFault)
  | config (fault : ConfigFault)
deriving DecidableEq

namespace Text

def occursIn (needle : List Char) : List Char → Bool
  | [] => needle.isEmpty
  | c :: rest => needle.isPrefixOf (c :: rest) || occursIn needle rest

theorem occursIn_iff (needle text : List Char) :
    occursIn needle text = true ↔ needle <:+: text := by
  induction text with
  | nil => simp [occursIn, List.isEmpty_iff]
  | cons c rest ih => simp [occursIn, ih, List.infix_cons_iff]

end Text

namespace Failure

def message : Failure → String
  | .initTimeout budget =>
    "runner initialization timed out after " ++ toString budget.millis ++ "ms"
  | .bootstrapFailure message => "runner bootstrap failed: " ++ message
  | .notReady => "runner not ready: context was replaced before dispatch"
  | .executionTimeout budget => "execution timed out after " ++ toString budget.millis ++ "ms"
  | .executionFailure message => "execution failed: " ++ message
  | .resetInterrupted => "runner reset while the call was pending"
  | .link fault => "IPC error: " ++ fault.message
  | .codec fault => "serialization error: " ++ fault.message
  | .config fault => "configuration error: " ++ fault.message

/-- Whether the failure is reported as the end of the context it happened on. -/
def isTerminal : Failure → Bool
  | .executionTimeout _ | .bootstrapFailure _ | .resetInterrupted => true
  | _ => false

def hint? : Failure → Option String
  | .initTimeout _ => some "the engine is still starting; retry or raise --init-timeout"
  | .bootstrapFailure _ => some "check WARDEN_ENGINE_PATH points at a valid engine library"
  | .executionTimeout _ => some "the snippet may loop forever; raise --timeout if it is just slow"
  | .link fault =>
    if Text.occursIn "worker binary".toList fault.message.toList then
      some "set WARDEN_WORKER_PATH or build the warden-worker binary"
    else none
  | _ => none

def messageWithHint (failure : Failure) : String :=
  match failure.hint? with
  | some hint => failure.message ++ "\n  hint: " ++ hint
  | none => failure.message

end Failure

end Sandbox

namespace Sandbox

structure CorrelationId where
  text : String
deriving DecidableEq, Hashable

namespace CorrelationId

/-- The id of the warm-up ping, which no caller waits for. -/
def warmup : CorrelationId := ⟨"handshake"⟩

end CorrelationId

inductive Request.Kind
  | ping
  | run (code : String)
deriving DecidableEq

structure Request where
  id : CorrelationId
  kind : Request.Kind
deriving DecidableEq

inductive Response.Kind
  | ready
  | result (stdout stderr : String)
  | failure (message : String)
deriving DecidableEq

structure Response where
  id : CorrelationId
  kind : Response.Kind
deriving DecidableEq

structure RunOutput where
  stdout : String
  stderr : String
deriving DecidableEq

end Sandbox

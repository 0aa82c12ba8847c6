import Sandbox.Environment
import Sandbox.Failure
import Sandbox.Text.Numeral

namespace Sandbox

namespace Setting

def execution : String := "WARDEN_EXECUTION_TIMEOUT_MS"

def readiness : String := "WARDEN_INIT_TIMEOUT_MS"

def bootstrap : String := "WARDEN_BOOTSTRAP_TIMEOUT_MS"

def parseMillis (name value : String) : Except Failure Duration :=
  match Text.Numeral.parse? Text.Numeral.maxWord (Text.trim value.toList) with
  | none => .error (.config (.notMillis name value))
  | some 0 => .error (.config (.zero name))
  | some (count + 1) => .ok (.ofMillis (count + 1))

def millis (env : Environment) (name : String) (default : Duration) : Except Failure Duration :=
  match env.text? name with
  | some value => parseMillis name value
  | none => .ok default

end Setting

/-- The two budgets of a call: one for the snippet, from its dispatch on, and one for the readiness
handshake before it. -/
structure Budgets where
  execution : Duration := .ofMillis 2000
  readiness : Duration := .ofMillis 6000
deriving DecidableEq

namespace Budgets

def ofEnvironment (env : Environment) : Except Failure Budgets := do
  let execution ← Setting.millis env Setting.execution ({} : Budgets).execution
  let readiness ← Setting.millis env Setting.readiness ({} : Budgets).readiness
  return { execution, readiness }

end Budgets

structure BootstrapBudget where
  span : Duration := .ofMillis 4000
deriving DecidableEq

def BootstrapBudget.ofEnvironment (env : Environment) : Except Failure BootstrapBudget := do
  return ⟨← Setting.millis env Setting.bootstrap ({} : BootstrapBudget).span⟩

end Sandbox

import Sandbox.Context.Process

namespace Sandbox.Context

structure Command where
  worker : String
  engine : Option String := none
  bootstrap : BootstrapBudget := {}

namespace Command

def environment (command : Command) (env : Environment) : Environment :=
  let env := env.setText Setting.bootstrap (toString command.bootstrap.span.millis)
  match command.engine with
  | some engine => env.setText Surroundings.engineSetting engine
  | none => env

/-- A program that was just started. A worker whose settings cannot be read ends at once. -/
def start (here : Surroundings Image) : Image → Child
  | .worker => match Worker.boot here.env with
    | .ok budget => .worker {} {} here.engine (here.library? here.engine) budget.span
    | .error _ => .ended
  | .echo => .echo ByteArray.empty false
  | .quits | .library _ => .ended

def spawn (command : Command) (here : Surroundings Image) : Except Failure Process :=
  match here.program command.worker with
  | .ok image =>
    .ok { child := start { here with env := command.environment here.env } image }
  | .error cause => .error (.link (.spawnFailed command.worker cause.message))

end Command

def Child.delay : Child → Duration
  | .worker _ _ _ (some library) _ => library.initSpan
  | _ => ⟨0⟩

end Sandbox.Context

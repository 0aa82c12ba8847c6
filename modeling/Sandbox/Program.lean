import Sandbox.Engine.Kit
import Sandbox.Lookup
import Sandbox.Worker.Basic

namespace Sandbox

inductive Image
  | worker
  | echo
  | quits
  | library (library : Engine.Library Engine.Kit.State)

namespace Surroundings

/-- A library as the dynamic loader finds it. The empty path stands for the running program, which
is no engine; a plain name is looked for where no engine lies. -/
def library? (here : Surroundings Image) (path : String) :
    Option (Engine.Library Engine.Kit.State) :=
  if path = "" then some { Engine.Kit.library with initStatus := none, executes := false }
  else if path.contains '/' then
    match here.files.lookup here.directory path with
    | .ok (.image (.library library)) => some library
    | _ => none
  else none

end Surroundings

namespace Worker

def provider (here : Surroundings Image) : Engine.Provider Engine.Kit.State :=
  Engine.Library.provider here.engine (here.library? here.engine)

/-- Runs a worker on an input that is there as a whole: how it ends, if it does, and what it wrote
until then. Settings that it cannot read end it before it reads anything. -/
def runOn (here : Surroundings Image) (input : ByteArray) : Option Exit × ByteArray :=
  match boot here.env with
  | .error cause => (some (.code 1 (some (.ofFailure cause))), ByteArray.empty)
  | .ok budget =>
    let (s, _) := round (provider here) budget.span { input, closed := true } {}
    (s.exit, s.output)

end Worker

end Sandbox

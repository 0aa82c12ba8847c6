import Sandbox.Environment
import Sandbox.Failure
import Sandbox.Files
import Sandbox.Text.Utf8

namespace Sandbox

structure Surroundings (π : Type) where
  files : FileTree π
  directory : List String
  home : String
  env : Environment

namespace Surroundings

variable {π : Type} (here : Surroundings π)

def workerName : String := "warden-worker"

def workerSetting : String := "WARDEN_WORKER_PATH"

def engineSetting : String := "WARDEN_ENGINE_PATH"

def exists? (path : String) : Bool := here.files.exists? here.directory path

def namedWorker? : Option String := (here.env.text? workerSetting).filter here.exists?

def nearWorker? : Option String :=
  [Path.join here.home workerName, Path.join (Path.parent here.home) workerName].find? here.exists?

def searchPath : List String :=
  match here.env.value? "PATH" with
  | some value => (Text.Utf8.lossy value).splitOn ":"
  | none => []

def execute (path : String) : Except OsError π := do
  match ← here.files.lookup here.directory path with
  | .image what => .ok what
  | _ => .error .denied

def onSearchPath? (name : String) : Option String :=
  (here.searchPath.map (Path.join · name)).find? fun path => (here.execute path).toBool

def builtWorker? : Option String := do
  let package ← here.env.text? "CARGO_MANIFEST_DIR"
  let target := Path.join (Path.join (Path.join package "..") "..") "target"
  let paths := ["debug", "release"].map fun profile =>
    Path.join (Path.join target profile) workerName
  paths.findSome? fun path =>
    (here.files.resolve here.directory path).toOption.map Path.absolute

def worker : Except Failure String :=
  match here.namedWorker?.or (here.nearWorker?.or
      ((here.onSearchPath? workerName).or here.builtWorker?)) with
  | some path => .ok path
  | none => .error (.link .workerNotFound)

/-- The engine library: the path that the environment names, whatever is there, or the library next
to the running program. -/
def engine : String :=
  (here.env.text? engineSetting).getD (Path.join here.home "libwarden_engine.so")

/-- Tries one path after another. That something was there, but could not be executed, counts for
more than that nothing was there. -/
def executeFirst : List String → Except OsError π
  | [] => .error .notFound
  | path :: rest => match here.execute path, executeFirst rest with
    | .ok what, _ => .ok what
    | .error .denied, .error _ => .error .denied
    | .error _, result => result

def program (path : String) : Except OsError π :=
  if path = "" then .error .notFound
  else if path.contains '/' then here.execute path
  else here.executeFirst (here.searchPath.map (Path.join · path))

end Surroundings

end Sandbox

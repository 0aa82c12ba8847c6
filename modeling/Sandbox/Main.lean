import Sandbox.CommandLine.Basic

namespace Sandbox.CommandLine

def variableNames : List String :=
  [Setting.execution, Setting.readiness, Setting.bootstrap, Surroundings.workerSetting,
    Surroundings.engineSetting, "PATH", "CARGO_MANIFEST_DIR"]

def readEnvironment : IO Environment := do
  let values ← variableNames.mapM fun name => do
    return (← IO.getEnv name).map fun value => (name, value.toUTF8)
  return ⟨values.filterMap id⟩

def nodeOf (name : String) (content : ByteArray) : Node Image :=
  if name = Surroundings.workerName then .image .worker
  else match Engine.Kit.library? ((name.splitOn ".").headD "") with
    | some library => if name.endsWith ".so" then .image (.library library) else .file content
    | none => .file content

def names (path : String) : List String :=
  (path.splitOn "/").foldl (fun place name =>
    if name = "" ∨ name = "." then place
    else if name = ".." then place.dropLast
    else place ++ [name]) []

def probe (directory path : String) : IO (Option (List String × Node Image)) := do
  let place := names (Path.join directory path)
  try
    let content ← IO.FS.readBinFile path
    return some (place, nodeOf (place.getLastD "") content)
  catch
    | .inappropriateType .. => return some (place, .directory)
    | _ => return none

partial def readAll (stream : IO.FS.Stream) (bytes : ByteArray) : IO ByteArray := do
  let piece ← stream.read 65536
  if piece.isEmpty then return bytes else readAll stream (bytes ++ piece)

def candidates (home : String) (env : Environment) (arguments : List String) : List String :=
  let settings := [Surroundings.workerSetting, Surroundings.engineSetting].filterMap env.text?
  let near := [Path.join home Surroundings.workerName,
    Path.join (Path.parent home) Surroundings.workerName, Path.join home "libwarden_engine.so"]
  let values := arguments.filterMap fun argument => (splitLong argument).2
  (arguments ++ values ++ settings ++ near).filter (· ≠ "")

end Sandbox.CommandLine

open Sandbox Sandbox.CommandLine in
def main (arguments : List String) : IO UInt32 := do
  let env ← readEnvironment
  let directory := (← IO.currentDir).toString
  let home := Path.parent (← IO.appPath).toString
  let nodes ← (candidates home env arguments).mapM (probe directory)
  let files : FileTree Image := ⟨(names directory, .directory) :: nodes.filterMap id⟩
  let here : Surroundings Image := { files, directory := names directory, home, env }
  let input ← if "-" ∈ arguments then readAll (← IO.getStdin) ByteArray.empty
    else pure ByteArray.empty
  let printed := (perform ⟨here, input⟩ arguments).print seconds
  IO.print printed.stdout
  IO.eprint printed.stderr
  return printed.exit.toUInt32

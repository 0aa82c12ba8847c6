import Sandbox.Engine.Basic
import Sandbox.Text.Utf8

namespace Sandbox.Engine

structure Buffer where
  address : Nat
  bytes : ByteArray

structure Answer where
  status : Int
  stdout : Option Buffer
  stderr : Option Buffer

structure Library (σ : Type) where
  initStatus : Option Int
  initSpan : Duration := ⟨0⟩
  executes : Bool := true
  frees : Bool := true
  execute : σ → String → Except Halt Answer × σ
  free : σ → (address length : Nat) → σ

namespace Library

variable {σ : Type}

def fault? (path : String) : Option (Library σ) → Option String
  | none => some ("failed to load engine library '" ++ path ++ "': dlopen failed")
  | some library =>
    if library.initStatus.getD 0 ≠ 0 then
      some ("engine init returned status " ++ toString (library.initStatus.getD 0))
    else if !library.executes then some "engine has no execute entry point: dlsym failed"
    else if !library.frees then some "engine has no free entry point: dlsym failed"
    else none

def takeBuffer (library : Library σ) (state : σ) : Option Buffer → Option String × σ
  | none => (none, state)
  | some ⟨address, bytes⟩ =>
    (some (Text.Utf8.lossy bytes), library.free state address bytes.size)

/-- Executes a snippet. Both buffers are taken before the status is looked at. -/
def run (library : Library σ) (state : σ) (code : String) : Verdict × σ :=
  match library.execute state code with
  | (.error halt, state) => (.halt halt, state)
  | (.ok answer, state) =>
    let (stdout, state) := library.takeBuffer state answer.stdout
    let (stderr, state) := library.takeBuffer state answer.stderr
    if answer.status = 0 then (.output ⟨stdout, stderr⟩, state)
    else (.error (stderr.getD ("engine returned status " ++ toString answer.status)), state)

def provider (path : String) (library : Option (Library σ)) : Provider σ where
  start state _ _ := match fault? path library with
    | some message => (⟨some .dropped, .error message⟩, state)
    | none => (⟨some (.published 0), .ok ()⟩, state)
  execute state _ code := match library with
    | some library => library.run state code
    | none => (.halt .spins, state)

end Library

end Sandbox.Engine

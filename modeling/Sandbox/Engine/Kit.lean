import Sandbox.Engine.Library

namespace Sandbox.Engine.Kit

structure State where
  executions : Nat := 0
  buffers : Nat := 0
deriving DecidableEq

def hexValue (c : Char) : Nat :=
  if c.isDigit then c.toNat - '0'.toNat
  else if 'a' ≤ c ∧ c ≤ 'f' then c.toNat - 'a'.toNat + 10
  else if 'A' ≤ c ∧ c ≤ 'F' then c.toNat - 'A'.toNat + 10
  else 0

def hexBytes : List Char → List UInt8
  | high :: low :: rest => UInt8.ofNat (hexValue high * 16 + hexValue low) :: hexBytes rest
  | _ => []

def leadingInt : List Char → Int
  | '-' :: rest => -(digits rest : Int)
  | '+' :: rest => digits rest
  | text => digits text
where
  digits (text : List Char) : Nat :=
    (text.takeWhile Char.isDigit).foldl (fun value c => 10 * value + (c.toNat - '0'.toNat)) 0

def int32 (n : Int) : Int := Int.bmod n 4294967296

def bytes (text : String) : Option ByteArray := some text.toUTF8

def handOut (status : Int) (stdout stderr : Option ByteArray) : Except Halt Answer :=
  .ok ⟨status, stdout.map (⟨1, ·⟩), stderr.map (⟨2, ·⟩)⟩

def answer (state : State) (code : String) : Except Halt Answer :=
  match code with
  | "silent" => handOut 0 none none
  | "empty" => handOut 0 (bytes "") (bytes "")
  | "boom" => handOut 1 none (bytes "boom")
  | "fail-empty" => handOut 1 none (bytes "")
  | "fail-out" => handOut 2 (bytes "lost") none
  | "fail-both" => handOut (-1) (bytes "lost") (bytes "kept")
  | "loop" => .error .spins
  | "count" => handOut 0 (bytes (toString state.executions)) none
  | "live" => handOut 0 (bytes (toString state.buffers)) none
  | "len" => handOut 0 (bytes (toString code.utf8ByteSize)) none
  | "kill" => .error .killed
  | _ =>
    if code.startsWith "exit:" then
      .error (.exits ((leadingInt (code.toList.drop 5)).emod 256).toNat)
    else if code.startsWith "status:" then
      handOut (int32 (leadingInt (code.toList.drop 7))) none none
    else if code.startsWith "out:" then
      handOut 0 (some (hexBytes (code.toList.drop 4)).toByteArray) none
    else if code.startsWith "err:" then
      handOut 0 none (some (hexBytes (code.toList.drop 4)).toByteArray)
    else if code.startsWith "fail:" then
      handOut 1 none (some (hexBytes (code.toList.drop 5)).toByteArray)
    else if code.startsWith "both:" then
      handOut 0 (some (code.toUTF8.extract 5 code.utf8ByteSize)) (bytes code)
    else handOut 0 (bytes (code ++ "\n")) none

def count : Option Buffer → Nat
  | some _ => 1
  | none => 0

def execute (state : State) (code : String) : Except Halt Answer × State :=
  let state := { state with executions := state.executions + 1 }
  match answer state code with
  | .error halt => (.error halt, state)
  | .ok answer =>
    (.ok answer, { state with buffers := state.buffers + count answer.stdout + count answer.stderr })

def free (state : State) (_ _ : Nat) : State := { state with buffers := state.buffers - 1 }

def library : Library State := { initStatus := some 0, execute, free }

def plain : Library State where
  initStatus := some 0
  execute state code := (match code with
    | "loop" => .error .spins
    | "boom" => handOut 1 none (bytes "boom")
    | "silent" => handOut 0 none none
    | _ => handOut 0 (bytes (code ++ "\n")) none, state)
  free state _ _ := state

def library? : String → Option (Library State)
  | "kit" => some library
  | "noinit" => some { library with initStatus := none }
  | "initfail" => some { library with initStatus := some 3 }
  | "initneg" => some { library with initStatus := some (-1) }
  | "slowinit" => some { library with initSpan := .ofMillis 250 }
  | "noexec" => some { library with executes := false }
  | "nofree" => some { library with frees := false }
  | "nothing" => some { library with executes := false, frees := false }
  | "fixture" => some plain
  | _ => none

end Sandbox.Engine.Kit

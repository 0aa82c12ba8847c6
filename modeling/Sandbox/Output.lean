import Sandbox.Failure
import Sandbox.Message

namespace Sandbox

structure Report where
  summary : String
  cause : Option String := none
deriving DecidableEq

namespace Report

def indent (text : String) : String :=
  String.join ((text.splitOn "\n").map fun line => "\n    " ++ line)

def render (report : Report) : String :=
  match report.cause with
  | some cause => "Error: " ++ report.summary ++ "\n\nCaused by:" ++ indent cause ++ "\n"
  | none => "Error: " ++ report.summary ++ "\n"

def ofFailure (cause : Failure) : Report := ⟨cause.message, none⟩

def withHint (cause : Failure) : Report := ⟨cause.messageWithHint, none⟩

end Report

inductive Exit
  | code (status : Nat) (report : Option Report)
  | signal
deriving DecidableEq

namespace Text.Quoted

def hexDigit (n : Nat) : Char := Char.ofNat (if n < 10 then '0'.toNat + n else 'a'.toNat + n - 10)

def escape (c : Char) : List Char :=
  -- The seven short escapes come first; the other control characters are given by their code.
  if c = '"' then ['\\', '"']
  else if c = '\\' then ['\\', '\\']
  else if c = '\x08' then ['\\', 'b']
  else if c = '\x0c' then ['\\', 'f']
  else if c = '\n' then ['\\', 'n']
  else if c = '\r' then ['\\', 'r']
  else if c = '\t' then ['\\', 't']
  else if c.toNat < 0x20 then
    ['\\', 'u', '0', '0', hexDigit (c.toNat / 16), hexDigit (c.toNat % 16)]
  else [c]

def encode (text : List Char) : List Char := '"' :: text.flatMap escape ++ ['"']

end Text.Quoted

def RunOutput.line (output : RunOutput) : String :=
  String.ofList ("\x7b\"stdout\":".toList ++ Text.Quoted.encode output.stdout.toList
    ++ ",\"stderr\":".toList ++ Text.Quoted.encode output.stderr.toList ++ ['\x7d'])

end Sandbox

import Sandbox.CommandLine.Usage
import Sandbox.Text.Numeral

namespace Sandbox.CommandLine

structure ContextOptions where
  engine : Option String := none
  worker : Option String := none
  readiness : Option Nat := none
deriving DecidableEq

inductive Command
  | run (file : String) (execution : Option Nat) (json : Bool) (options : ContextOptions)
  | check (options : ContextOptions)
deriving DecidableEq

inductive Invocation
  | command (command : Command)
  | version
  | help (topic : Topic)
  | misuse
deriving DecidableEq

structure Found where
  flags : List String := []
  values : List (String × String) := []
  operands : List String := []

structure Options where
  flags : List String
  times : List String := []
  paths : List String := []
  letters : List (Char × String)
  operands : Nat := 0
  topic : Topic

def Options.takesValue (options : Options) (name : String) : Bool :=
  name ∈ options.times || name ∈ options.paths

def positive? (value : String) : Option Nat :=
  match Text.Numeral.parse? Text.Numeral.maxWord value.toList with
  | some (count + 1) => some (count + 1)
  | _ => none

def Options.accepts (options : Options) (name value : String) : Bool :=
  if name ∈ options.times then (positive? value).isSome else value ≠ ""

def isOption (argument : String) : Bool := argument.startsWith "-" && argument != "-"

inductive Stop
  | version
  | help (topic : Topic)
  | misuse

def Found.addFlag (options : Options) (found : Found) (name : String) : Except Stop Found :=
  if name = "version" then .error .version
  else if name = "help" then .error (.help options.topic)
  else if name ∈ found.flags then .error .misuse
  else .ok { found with flags := name :: found.flags }

def Found.addValue (options : Options) (found : Found) (name value : String) :
    Except Stop Found :=
  if (found.values.lookup name).isSome ∨ !options.accepts name value then .error .misuse
  else .ok { found with values := (name, value) :: found.values }

def Found.addOperand (options : Options) (found : Found) (operand : String) : Except Stop Found :=
  if found.operands.length < options.operands then
    .ok { found with operands := found.operands ++ [operand] }
  else .error .misuse

def Found.addLetters (options : Options) : Found → List Char → Except Stop Found
  | found, [] => .ok found
  | found, letter :: rest => match options.letters.lookup letter with
    | some name => do addLetters options (← found.addFlag options name) rest
    | none => .error .misuse

def splitLong (argument : String) : String × Option String :=
  let text := argument.toList.drop 2
  let name := text.takeWhile (· ≠ '=')
  (String.ofList name, match text.drop name.length with
    | _ :: value => some (String.ofList value)
    | [] => none)

/-- Reads options and operands. Where operands are commands, the first one ends the reading. -/
def read (options : Options) (commands : List String) :
    Found → List String → Except Stop (Found × Option (String × List String))
  | found, [] => .ok (found, none)
  | found, argument :: rest =>
    if argument = "--" then do
      .ok (← rest.foldlM (Found.addOperand options) found, none)
    else if argument.startsWith "--" then
      let (name, value) := splitLong argument
      if name ∈ options.flags then
        match value with
        | some _ => .error .misuse
        | none => do read options commands (← found.addFlag options name) rest
      else if options.takesValue name then
        match value, rest with
        | some value, rest => do read options commands (← found.addValue options name value) rest
        | none, value :: rest =>
          if isOption value then .error .misuse
          else do read options commands (← found.addValue options name value) rest
        | none, [] => .error .misuse
      else .error .misuse
    else if isOption argument then do
      read options commands (← found.addLetters options (argument.toList.drop 1)) rest
    else if argument ∈ commands then .ok (found, some (argument, rest))
    else do read options commands (← found.addOperand options argument) rest

def generalOptions : Options where
  flags := ["verbose", "version", "help"]
  letters := [('v', "verbose"), ('V', "version"), ('h', "help")]
  topic := .program

def runOptions : Options where
  flags := ["verbose", "help", "json"]
  times := ["timeout", "init-timeout"]
  paths := ["engine", "worker"]
  letters := [('v', "verbose"), ('h', "help")]
  operands := 1
  topic := .run

def checkOptions : Options where
  flags := ["verbose", "help"]
  times := ["init-timeout"]
  paths := ["engine", "worker"]
  letters := [('v', "verbose"), ('h', "help")]
  topic := .check

def Found.time (found : Found) (name : String) : Option Nat :=
  (found.values.lookup name).bind positive?

def Found.context (found : Found) : ContextOptions where
  engine := found.values.lookup "engine"
  worker := found.values.lookup "worker"
  readiness := found.time "init-timeout"

def readRun (arguments : List String) : Except Stop Command := do
  let (found, _) ← read runOptions [] {} arguments
  match found.operands with
  | [file] => .ok (.run file (found.time "timeout") ("json" ∈ found.flags) found.context)
  | _ => .error .misuse

def readCheck (arguments : List String) : Except Stop Command := do
  let (found, _) ← read checkOptions [] {} arguments
  return .check found.context

def readCommand (arguments : List String) : Except Stop Command := do
  match ← read generalOptions ["run", "check", "help"] {} arguments with
  | (_, some ("run", rest)) => readRun rest
  | (_, some ("check", rest)) => readCheck rest
  | (_, some ("help", names)) => match Topic.ofArguments? names with
    | some topic => .error (.help topic)
    | none => .error .misuse
  | _ => .error .misuse

def Invocation.ofArguments (arguments : List String) : Invocation :=
  match readCommand arguments with
  | .ok parsed => .command parsed
  | .error .version => .version
  | .error (.help topic) => .help topic
  | .error .misuse => .misuse

end Sandbox.CommandLine

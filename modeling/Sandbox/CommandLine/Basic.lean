import Sandbox.CommandLine.Arguments
import Sandbox.Context.Fleet
import Sandbox.Identity
import Sandbox.Output

namespace Sandbox.CommandLine

open Client (Ask Play Settings)
open Context (Fleet)

structure Host where
  here : Surroundings Image
  input : ByteArray

structure Configuration where
  budgets : Budgets
  command : Context.Command

/-- The execution setting is read first, then the one for readiness; then the worker is looked for,
unless it is given, and the bootstrap setting is read last. -/
def configure (here : Surroundings Image) (options : ContextOptions) (execution : Option Nat) :
    Except Failure Configuration := do
  let budgets ← Budgets.ofEnvironment here.env
  let worker ← match options.worker with
    | some worker => .ok worker
    | none => here.worker
  let bootstrap ← BootstrapBudget.ofEnvironment here.env
  return {
    budgets := {
      execution := (execution.map Duration.ofMillis).getD budgets.execution
      readiness := (options.readiness.map Duration.ofMillis).getD budgets.readiness }
    command := { worker, engine := options.engine, bootstrap } }

def readSnippet (host : Host) (file : String) : Except Report String :=
  let (name, bytes) := if file = "-" then ("from stdin", .ok host.input)
    else (file, host.here.files.read host.here.directory file)
  let summary := "Failed to read snippet " ++ name
  match bytes with
  | .error cause => .error ⟨summary, some cause.message⟩
  | .ok bytes => match String.fromUTF8? bytes with
    | some code => .ok code
    | none => .error ⟨summary, some "stream did not contain valid UTF-8"⟩

inductive Task
  | run (code : String) (json : Bool)
  | check

structure Job where
  configuration : Configuration
  task : Task

def Command.prepare (host : Host) : Command → Except Report Job
  | .run file execution json options => do
    let code ← readSnippet host file
    let configuration ← (configure host.here options execution).mapError .withHint
    return ⟨configuration, .run code json⟩
  | .check options => do
    return ⟨← (configure host.here options none).mapError .withHint, .check⟩

inductive Outcome
  | ran (json : Bool) (output : RunOutput)
  | ready (elapsed : Duration)
  | version
  | help (topic : Topic)
  | misuse
  | failed (report : Report)

def call (here : Surroundings Image) (configuration : Configuration) (ask : Ask) :
    Except Failure (Option RunOutput) × Duration :=
  let play : Play Fleet := {
    world := Fleet.world
    settings := ⟨configuration.budgets, CorrelationId.generate⟩
    scene := { maker := .processes configuration.command here } }
  let play := (play.act (.begin ask)).finish [0]
  match play.client.phase? 0 with
  | some (.finished outcome) => (outcome, play.client.now)
  | _ => (.error .resetInterrupted, play.client.now)

def Job.perform (here : Surroundings Image) (job : Job) : Outcome :=
  match job.task with
  | .run code json => match call here job.configuration (.run code none) with
    | (.ok output, _) => .ran json (output.getD ⟨"", ""⟩)
    | (.error cause, _) => .failed (.withHint cause)
  | .check => match call here job.configuration (.ready job.configuration.budgets.readiness) with
    | (.ok _, elapsed) => .ready elapsed
    | (.error cause, _) => .failed (.withHint cause)

def perform (host : Host) (arguments : List String) : Outcome :=
  match Invocation.ofArguments arguments with
  | .command command => match command.prepare host with
    | .ok job => job.perform host.here
    | .error report => .failed report
  | .version => .version
  | .help topic => .help topic
  | .misuse => .misuse

def seconds (span : Duration) : String :=
  let hundredths := (span.nanos + 5000000) / 10000000
  let fraction := hundredths % 100
  toString (hundredths / 100) ++ "." ++ (if fraction < 10 then "0" else "") ++ toString fraction

def readyLine (elapsed : String) : String :=
  "\x1b[32mready\x1b[0m \x1b[2m(" ++ elapsed ++ "s)\x1b[0m\n"

structure Printed where
  exit : Nat
  stdout : String := ""
  stderr : String := ""

def Outcome.print (showTime : Duration → String) : Outcome → Printed
  | .ran true output => ⟨0, output.line ++ "\n", ""⟩
  | .ran false output => ⟨0, output.stdout, output.stderr⟩
  | .ready elapsed => ⟨0, readyLine (showTime elapsed), ""⟩
  | .version => ⟨0, "warden 0.1.0\n", ""⟩
  | .help topic => ⟨0, topic.text, ""⟩
  | .misuse => ⟨2, "", Topic.complaint⟩
  | .failed report => ⟨1, "", report.render⟩

end Sandbox.CommandLine

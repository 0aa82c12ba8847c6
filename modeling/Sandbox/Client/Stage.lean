import Sandbox.Client.Play

namespace Sandbox.Client

structure Script where
  onPing : Option Response.Kind := none
  onRun : Option (String → Response.Kind) := none
  creationFault : Option String := none
  posts : Option Nat := none

structure Stage where
  script : Script
  contexts : List Nat := []
  destroyed : List Nat := []
  posted : List (Nat × Request) := []
  events : List (Nat × Event) := []

namespace Stage

def number (stage : Stage) (generation : Nat) : Nat := stage.contexts.idxOf generation

def create (stage : Stage) (generation : Nat) : Except Failure Unit × Stage :=
  match stage.script.creationFault with
  | some text => (.error (.link (.reported text)), stage)
  | none => (.ok (), { stage with contexts := stage.contexts ++ [generation] })

def reaction? (script : Script) : Request.Kind → Option Response.Kind
  | .ping => script.onPing
  | .run code => script.onRun.map (· code)

def post (stage : Stage) (generation : Nat) (request : Request) : Except Failure Unit × Stage :=
  match stage.script.posts with
  | some 0 => (.error (.link (.reported "scripted post failure")), stage)
  | posts =>
    let answers := (reaction? stage.script request.kind).toList.map fun kind =>
      (generation, Event.response ⟨request.id, kind⟩)
    (.ok (), { stage with
      script := { stage.script with posts := posts.map (· - 1) }
      posted := stage.posted ++ [(stage.number generation, request)]
      events := stage.events ++ answers })

def destroy (stage : Stage) (generation : Nat) : Stage :=
  { stage with destroyed := stage.destroyed ++ [stage.number generation] }

def world : World Stage where
  contexts := ⟨create, post, destroy⟩
  takeEvents stage := (stage.events, { stage with events := [] })

def queue (stage : Stage) (number : Nat) (event : Event) : Stage :=
  match stage.contexts[number]? with
  | some generation => { stage with events := stage.events ++ [(generation, event)] }
  | none => stage

end Stage

end Sandbox.Client

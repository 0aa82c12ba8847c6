import Sandbox.Runner.Basic

namespace Sandbox.Runner

/-- The calls in `serving` send their answers to the outbox, as long as somebody reads it. -/
structure Service where
  runner : State := {}
  inbox : List Request := []
  closed : Bool := false
  accepting : Bool := false
  serving : List Nat := []
  outbox : List Response := []
  heard : Bool := true

namespace Service

def start (s : Service) : Service :=
  { s with runner := (s.runner.start .warmUp).2, accepting := true }

def post (s : Service) (request : Request) : Service :=
  if s.closed then s else { s with inbox := s.inbox ++ [request] }

def close (s : Service) : Service := { s with closed := true }

/-- From here on nobody reads the answers, and those that were not read are lost. -/
def stopListening (s : Service) : Service := { s with outbox := [], heard := false }

def onRunner (s : Service) (change : State → State) : Service :=
  { s with runner := change s.runner }

def receive (s : Service) : Service :=
  match s.accepting, s.runner.halted, s.inbox with
  | true, none, request :: rest =>
    let (caller, runner) := s.runner.start (.answer request)
    { s with runner, inbox := rest, serving := s.serving ++ [caller] }
  | true, none, [] => if s.closed then { s with accepting := false } else s
  | _, _, _ => s

def answer? (s : State) (caller : Nat) : Option Response :=
  match s.calls[caller]? with
  | some ⟨_, .finished (.response response)⟩ => some response
  | _ => none

section
variable {σ : Type} (provider : Engine.Provider σ) (budget : Duration)

def poll (s : Service) (w : σ) (caller : Nat) : Service × σ :=
  let (runner, w) := Runner.poll provider budget s.runner w caller
  let fresh := match answer? s.runner caller with
    | none => (answer? runner caller).toList
    | some _ => []
  let sent := if s.heard ∧ caller ∈ s.serving then fresh else []
  ({ s with runner, outbox := s.outbox ++ sent }, w)

end

inductive Action
  | start
  | post (request : Request)
  | close
  | stopListening
  | receive
  | runner (action : Runner.Action)

section
variable {σ : Type} (provider : Engine.Provider σ) (budget : Duration)

def step : Service × σ → Action → Service × σ
  | (s, w), .start => (s.start, w)
  | (s, w), .post request => (s.post request, w)
  | (s, w), .close => (s.close, w)
  | (s, w), .stopListening => (s.stopListening, w)
  | (s, w), .receive => (s.receive, w)
  | (s, w), .runner (.poll caller) => s.poll provider budget w caller
  | (s, w), .runner action =>
    let (runner, w) := Runner.step provider budget (s.runner, w) action
    ({ s with runner }, w)

def run (start : Service × σ) (actions : List Action) : Service × σ :=
  actions.foldl (step provider budget) start

end

def active (s : Service) : List Nat :=
  (List.range s.runner.calls.length).filter fun caller =>
    (s.runner.calls[caller]?.map Call.phase) == some .active

def mayAnswer (s : Service) : Bool :=
  s.accepting || s.serving.any fun caller =>
    (s.runner.calls[caller]?.map Call.phase) == some .active

section
variable {σ : Type} (provider : Engine.Provider σ) (budget : Duration)

def receiveAll (s : Service) : Service := Nat.repeat receive (s.inbox.length + 1) s

def pollAll (s : Service) (w : σ) : Service × σ :=
  s.active.foldl (fun (s, w) caller => s.poll provider budget w caller) (s, w)

def round (s : Service) (w : σ) : Service × σ := s.receiveAll.pollAll provider budget w

end

end Service

end Sandbox.Runner

import Sandbox.Client.Step

/-!
A client in a world of contexts, in virtual time. Contexts move first; the client then takes their
events in order, and calls that were settled go on after that, in the order in which they were
settled. When nothing more happens, time may pass to the next moment at which something does.
-/

namespace Sandbox.Client

structure World (σ : Type) where
  contexts : Contexts σ
  move : σ → σ := id
  takeEvents : σ → List (Nat × Event) × σ
  moments : σ → List Duration := fun _ => []
  setClock : σ → Duration → σ := fun w _ => w

/-- A client with the calls that can go on, in order. A leaving client is dropped with the end of
its last call. -/
structure Play (σ : Type) where
  world : World σ
  settings : Settings
  client : State := {}
  scene : σ
  able : List Nat := []
  leaving : Bool := false

namespace Play

variable {σ : Type}

def note (p : Play σ) : Play σ :=
  let fresh := (List.range p.client.calls.length).filter fun caller =>
    caller ∉ p.able ∧ (p.client.phase? caller).any (·.canProceed p.client.now)
  { p with able := p.able ++ fresh }

def act (p : Play σ) (action : Action) : Play σ :=
  let (client, scene) := step p.world.contexts p.settings (p.client, p.scene) action
  { p with client, scene }.note

def goOn (p : Play σ) (caller : Nat) : Play σ :=
  Nat.repeat (fun p => if (p.client.phase? caller).any (·.canProceed p.client.now) then
    p.act (.proceed caller) else p) 4 p

def goOnAll (p : Play σ) : Play σ :=
  p.able.foldl (fun p caller =>
    let p := p.goOn caller
    { p with able := p.able.erase caller }) p

def takeEvents (p : Play σ) (events : List (Nat × Event)) : Play σ :=
  events.foldl (fun p (generation, event) => p.act (.event generation event)) p

def settleFor : Nat → Play σ → Play σ
  | 0, p => p
  | rounds + 1, p =>
    let (events, scene) := p.world.takeEvents (p.world.move p.scene)
    let p := { p with scene }
    if events.isEmpty ∧ p.able.isEmpty then p
    else settleFor rounds (p.takeEvents events).goOnAll

def leave (p : Play σ) : Play σ := if p.leaving ∧ !p.client.dropped then p.act .drop else p

/-- Goes on until nothing happens without time passing. A round moves a call, or takes the answer
to one of the three requests that a call posts at most. -/
def settle (p : Play σ) : Play σ :=
  (settleFor (6 * p.client.calls.length + 6) p.goOnAll).leave

def next? (p : Play σ) : Option Duration :=
  let deadlines := p.client.calls.filterMap fun call => match call.phase with
    | .waiting wait => some wait.deadline
    | _ => none
  let moments := (deadlines ++ p.world.moments p.scene).map Duration.nanos
  (moments.filter (p.client.now.nanos < ·)).min?.map Duration.mk

def moveTo (p : Play σ) (moment : Duration) : Play σ :=
  let p := { p with scene := p.world.setClock p.scene moment }
  (p.act (.advance ⟨moment.nanos - p.client.now.nanos⟩)).settle

def advanceTo (limit : Duration) : Nat → Play σ → Play σ
  | 0, p => p.moveTo limit
  | moments + 1, p => match p.next? with
    | some moment =>
      if moment ≤ limit then advanceTo limit moments (p.moveTo moment) else p.moveTo limit
    | none => p.moveTo limit

def advance (p : Play σ) (span : Duration) : Play σ :=
  let p := p.settle
  advanceTo (p.client.now + span) (p.client.calls.length + (p.world.moments p.scene).length) p

def hasEnded (p : Play σ) (caller : Nat) : Bool :=
  !(p.client.phase? caller).any Phase.isActive

def finishFor (callers : List Nat) : Nat → Play σ → Play σ
  | 0, p => p
  | moments + 1, p =>
    if callers.all p.hasEnded then p
    else match p.next? with
      | some moment => finishFor callers moments (p.moveTo moment)
      | none => p

/-- Lets time pass until the given calls have ended. A call runs out of time twice at most, and a
context does little by the clock. -/
def finish (p : Play σ) (callers : List Nat) : Play σ :=
  finishFor callers (8 * p.client.calls.length + 8) p.settle

end Play

end Sandbox.Client

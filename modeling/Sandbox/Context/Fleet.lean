import Sandbox.Client.Play
import Sandbox.Context.Command
import Sandbox.Context.Thread
import Sandbox.Engine.Script

namespace Sandbox.Context

open Client (Event)
open Engine (Bench Timer)

inductive Body
  | thread (thread : Thread)
  | process (process : Process)

namespace Body

def post (body : Body) (request : Request) : Except Failure Unit × Body :=
  match body with
  | .thread t =>
    let (result, t) := t.post request
    (result, .thread t)
  | .process p =>
    let (result, p) := p.post request
    (result, .process p)

def destroy : Body → Body
  | .thread t => .thread t.destroy
  | .process p => .process p.kill

end Body

structure Member where
  generation : Nat
  body : Body
  opening : Duration
  timers : List Timer := []

namespace Member

def fire (now : Duration) (timers : List Timer) (thread : Thread) : Thread :=
  timers.foldl (fun thread timer =>
    if timer.due ≤ now then
      thread.onRunner fun runner => (Runner.deliver runner timer.slot timer.mail).2
    else thread) thread

def round (m : Member) (now budget : Duration) (bench : Bench) :
    List Event × Member × Bench :=
  if ¬ m.opening ≤ now then ([], m, bench)
  else match m.body with
    | .thread thread =>
      let thread := fire now m.timers thread
      let (sent, thread, bench) := thread.round Bench.provider budget bench
      let later := m.timers.filter fun timer => !decide (timer.due ≤ now)
      (sent.map .response, { m with body := .thread thread, timers := later ++ bench.timers },
        { bench with timers := [] })
    | .process process =>
      let (sent, process) := process.round
      (sent, { m with body := .process process }, bench)

def moments (m : Member) : List Duration :=
  let deadlines := match m.body with
    | .thread thread => match thread.service.runner.turn with
      | .taken bootstrap => [bootstrap.deadline]
      | _ => []
    | .process _ => []
  m.opening :: m.timers.map Timer.due ++ deadlines

end Member

inductive Maker
  | threads (budget : Duration)
  | processes (command : Command) (here : Surroundings Image)

structure Fleet where
  maker : Maker
  bench : Bench := { script := { rules := [], fallback := none }, plans := [] }
  now : Duration := ⟨0⟩
  members : List Member := []
  events : List (Nat × Event) := []

namespace Fleet

def add (f : Fleet) (member : Member) : Fleet := { f with members := f.members ++ [member] }

def startSpan (bench : Bench) : Duration :=
  match bench.plan bench.starts with
  | .library _ (some library) => library.initSpan
  | _ => ⟨0⟩

def create (f : Fleet) (generation : Nat) : Except Failure Unit × Fleet :=
  match f.maker with
  | .threads _ =>
    let runner : Runner.State := { now := f.now }
    let thread : Thread := { service := Runner.Service.start { runner } }
    (.ok (), f.add { generation, body := .thread thread, opening := f.now + startSpan f.bench })
  | .processes command here =>
    match command.spawn here with
    | .ok process =>
      (.ok (), f.add
        { generation, body := .process process, opening := f.now + process.child.delay })
    | .error cause => (.error cause, f)

def onMember (f : Fleet) (generation : Nat) (change : Member → Member) : Fleet :=
  { f with members := f.members.map fun m => if m.generation = generation then change m else m }

def member? (f : Fleet) (generation : Nat) : Option Member :=
  f.members.find? (·.generation = generation)

def post (f : Fleet) (generation : Nat) (request : Request) : Except Failure Unit × Fleet :=
  match f.member? generation with
  | some m =>
    let (result, body) := m.body.post request
    (result, f.onMember generation fun m => { m with body })
  | none => (.error (.link .contextDestroyed), f)

def destroy (f : Fleet) (generation : Nat) : Fleet :=
  f.onMember generation fun m => { m with body := m.body.destroy }

def budget (f : Fleet) : Duration :=
  match f.maker with
  | .threads budget => budget
  | .processes command _ => command.bootstrap.span

def round (f : Fleet) : Fleet :=
  f.members.foldl (fun g m =>
    let (sent, m, bench) := m.round f.now f.budget g.bench
    { g with
      bench
      members := g.members ++ [m]
      events := g.events ++ sent.map (m.generation, ·) }) { f with members := [] }

/-- Two rounds: a slot that a start leaves to be used at once is used in the second. -/
def move (f : Fleet) : Fleet := f.round.round

def takeEvents (f : Fleet) : List (Nat × Event) × Fleet := (f.events, { f with events := [] })

def moments (f : Fleet) : List Duration := f.members.flatMap Member.moments

def setClock (f : Fleet) (now : Duration) : Fleet :=
  { f with
    now
    members := f.members.map fun m => match m.body with
      | .thread thread => { m with body := .thread (thread.onRunner fun r => { r with now }) }
      | .process _ => m }

def world : Client.World Fleet where
  contexts := ⟨create, post, destroy⟩
  move := move
  takeEvents := takeEvents
  moments := moments
  setClock := setClock

def isClosed (f : Fleet) (generation : Nat) : Bool :=
  match f.member? generation with
  | some ⟨_, .thread thread, _, _⟩ => thread.ended
  | some ⟨_, .process process, _, _⟩ => process.isClosed
  | none => true

def gatherFor (generation count : Nat) : Nat → Fleet → Fleet
  | 0, f => f
  | moments + 1, f =>
    if count ≤ f.events.length ∨ f.isClosed generation then f
    else
      match ((f.moments.map Duration.nanos).filter (f.now.nanos < ·)).min? with
      | some moment => gatherFor generation count moments (f.setClock ⟨moment⟩).move
      | none => f

def gather (f : Fleet) (generation count : Nat) : List Event × Bool × Fleet :=
  let f := gatherFor generation count (f.moments.length + 8) f.move
  let closed := f.events.length < count && f.isClosed generation
  ((f.events.take count).map (·.2), closed, { f with events := f.events.drop count })

end Fleet

end Sandbox.Context

import Sandbox.Engine.Script
import Sandbox.Runner.Service

namespace Sandbox.Runner

open Engine

structure Timeline where
  service : Service
  bench : Bench
  budget : Duration

namespace Timeline

def due (t : Timeline) : List Timer := t.bench.timers.filter (·.due ≤ t.service.runner.now)

def fire (t : Timeline) (timer : Timer) : Timeline :=
  let (heard, runner) := deliver t.service.runner timer.slot timer.mail
  let published := match timer.mail with
    | .published _ => t.bench.published ++ [heard]
    | .dropped => t.bench.published
  { t with service := { t.service with runner }, bench := { t.bench with published } }

def fireDue (t : Timeline) : Timeline :=
  let due := t.due
  let rest := t.bench.timers.filter fun timer => !decide (timer.due ≤ t.service.runner.now)
  due.foldl fire { t with bench := { t.bench with timers := rest } }

def round (t : Timeline) : Timeline :=
  let t := t.fireDue
  let (service, bench) := t.service.round Bench.provider t.budget t.bench
  { t with service, bench }

/-- Three rounds: a granted turn starts a bootstrap, a slot due at once is used, and the outcome
reaches every call. -/
def settle (t : Timeline) : Timeline := t.round.round.round

def next? (t : Timeline) (limit : Duration) : Option Duration :=
  let deadlines := match t.service.runner.turn with
    | .taken bootstrap => [bootstrap.deadline]
    | _ => []
  let moments := (t.bench.timers.map Timer.due ++ deadlines).map Duration.nanos
  (moments.filter fun n => t.service.runner.now.nanos < n ∧ n ≤ limit.nanos).min?.map Duration.mk

def setClock (t : Timeline) (now : Duration) : Timeline :=
  { t with service := { t.service with runner := { t.service.runner with now } } }

def advanceTo (limit : Duration) : Nat → Timeline → Timeline
  | 0, t => (t.setClock limit).settle
  | moments + 1, t => match t.next? limit with
    | some moment => advanceTo limit moments (t.setClock moment).settle
    | none => (t.setClock limit).settle

/-- Lets time pass, moment by moment. A moment uses up a timer or ends the bootstrap. -/
def advance (t : Timeline) (span : Duration) : Timeline :=
  advanceTo (t.service.runner.now + span) (t.bench.timers.length + 2) t

def onService (t : Timeline) (change : Service → Service) : Timeline :=
  { t with service := change t.service }

def start (t : Timeline) (task : Task) : Nat × Timeline :=
  let (caller, runner) := t.service.runner.start task
  (caller, { t with service := { t.service with runner } })

def cancel (t : Timeline) (caller : Nat) : Timeline :=
  t.onService fun s => { s with runner := Runner.cancel s.runner caller }

def collect (t : Timeline) : List Response × Timeline :=
  (t.service.outbox, t.onService fun s => { s with outbox := [] })

end Timeline

end Sandbox.Runner

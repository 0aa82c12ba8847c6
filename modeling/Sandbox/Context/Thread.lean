import Sandbox.Client.Basic
import Sandbox.Runner.Service

/-!
A context on a thread of its own. The thread serves the posted requests and forwards the answers.
Destroying the context closes its queue and marks it; nothing that runs is stopped, but the first
answer that comes after that is not forwarded, and with it the thread ends and leaves all its calls
behind.
-/

namespace Sandbox.Context

open Runner (Service)

structure Thread where
  service : Service := Service.start {}
  destroyed : Bool := false
  forwarding : Bool := true

namespace Thread

/-- Whether the thread has ended: it takes no more requests and forwards no more answers. -/
def ended (t : Thread) : Bool :=
  !t.service.accepting && (!t.forwarding || (!t.service.mayAnswer && t.service.outbox.isEmpty))

def post (t : Thread) (request : Request) : Except Failure Unit × Thread :=
  if t.destroyed then (.error (.link .contextDestroyed), t)
  else (.ok (), { t with service := t.service.post request })

def destroy (t : Thread) : Thread :=
  { t with destroyed := true, service := t.service.close }

def receive (t : Thread) : Thread :=
  if t.ended then t else { t with service := t.service.receive }

/-- Forwards one answer, or stops forwarding. An execution that never ends keeps the thread from
that too. -/
def forward (t : Thread) : List Response × Thread :=
  match t.forwarding, t.service.runner.halted, t.service.outbox with
  | true, none, response :: rest =>
    if t.destroyed then
      ([], { t with forwarding := false, service := t.service.stopListening })
    else ([response], { t with service := { t.service with outbox := rest } })
  | _, _, _ => ([], t)

section
variable {σ : Type} (provider : Engine.Provider σ) (budget : Duration)

def poll (t : Thread) (w : σ) (caller : Nat) : Thread × σ :=
  if t.ended then (t, w)
  else
    let (service, w) := t.service.poll provider budget w caller
    ({ t with service }, w)

inductive Action
  | post (request : Request)
  | destroy
  | receive
  | poll (caller : Nat)
  | forward
  | deliver (slot : Nat) (mail : Engine.Mail)
  | advance (span : Duration)

def onRunner (t : Thread) (change : Runner.State → Runner.State) : Thread :=
  { t with service := t.service.onRunner change }

def step : Thread × σ → Action → List Response × Thread × σ
  | (t, w), .post request => ([], (t.post request).2, w)
  | (t, w), .destroy => ([], t.destroy, w)
  | (t, w), .receive => ([], t.receive, w)
  | (t, w), .poll caller => ([], t.poll provider budget w caller)
  | (t, w), .forward => (t.forward.1, t.forward.2, w)
  | (t, w), .deliver slot mail => ([], t.onRunner fun r => (Runner.deliver r slot mail).2, w)
  | (t, w), .advance span => ([], t.onRunner fun r => { r with now := r.now + span }, w)

def forwardFor : Nat → Thread → List Response × Thread
  | 0, t => ([], t)
  | count + 1, t =>
    let (sent, t) := t.forward
    let (more, t) := forwardFor count t
    (sent ++ more, t)

def round (t : Thread) (w : σ) : List Response × Thread × σ :=
  if t.ended then ([], t, w)
  else
    let (service, w) := t.service.round provider budget w
    let (sent, t) := forwardFor service.outbox.length { t with service }
    (sent, t, w)

end

end Thread

end Sandbox.Context

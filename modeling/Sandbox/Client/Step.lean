import Sandbox.Client.Basic

/-!
What can happen to a client, one critical section at a time. Each section is a function on the
client and the contexts; an action is one section, or a call's notice that its time is up, so that
every interleaving of calls, events, timers, resets and cancellations is a list of actions.
-/

namespace Sandbox.Client

section
variable {σ : Type} (contexts : Contexts σ) (settings : Settings)

def reset (s : State) (w : σ) : State × σ :=
  let w := match s.live with
    | some live => contexts.destroy w live.generation
    | none => w
  ({ s with live := none, pending := [] }.settleAll s.pending (.error .resetInterrupted), w)

/-- Makes sure that there is a live context. A new one gets a warm-up ping whose answer nobody
waits for; if even that cannot be posted, the context is destroyed again. -/
def ensureContext (s : State) (w : σ) : Except Failure Unit × State × σ :=
  match s.live with
  | some _ => (.ok (), s, w)
  | none =>
    let generation := s.generation + 1
    let s := { s with generation }
    match contexts.create w generation with
    | (.error cause, w) => (.error cause, s, w)
    | (.ok (), w) =>
      match contexts.post w generation ⟨.warmup, .ping⟩ with
      | (.error cause, w) => (.error cause, s, contexts.destroy w generation)
      | (.ok (), w) => (.ok (), { s with live := some ⟨generation, false⟩ }, w)

/-- Posts a request under a fresh id and registers the call for the answer. A request that cannot
be posted costs the context. -/
def dispatch (s : State) (w : σ) (caller : Nat) (awaited : Awaited) (kind : Request.Kind)
    (budget : Duration) : State × σ :=
  match s.live with
  | none => (s.finish caller (.error .notReady), w)
  | some live =>
    let id := settings.ids s.issued
    let s := { s with issued := s.issued + 1 }
    match contexts.post w live.generation ⟨id, kind⟩ with
    | (.error cause, w) =>
      let (s, w) := reset contexts s w
      (s.finish caller (.error cause), w)
    | (.ok (), w) =>
      ({ s with pending := ⟨id, awaited, caller⟩ :: s.pending }.setPhase caller
        (.waiting { awaited, id, budget, deadline := s.now + budget }), w)

def onReady (s : State) (caller : Nat) : Ask → State
  | .ready _ => s.finish caller (.ok none)
  | .run _ _ => s.setPhase caller .admitted

def seekReadiness (s : State) (w : σ) (caller : Nat) (ask : Ask) : State × σ :=
  match ensureContext contexts s w with
  | (.error cause, s, w) => (s.finish caller (.error cause), w)
  | (.ok (), s, w) =>
    if s.isReady then (onReady s caller ask, w)
    else dispatch contexts settings s w caller .handshake .ping (ask.readiness settings)

def dispatchRun (s : State) (w : σ) (caller : Nat) (ask : Ask) : State × σ :=
  match ask with
  | .ready _ => (s, w)
  | .run code _ =>
    if s.isReady then
      dispatch contexts settings s w caller .run (.run code) (ask.execution settings)
    else (s.finish caller (.error .notReady), w)

def takeReply (s : State) (caller : Nat) (ask : Ask) (awaited : Awaited)
    (reply : Except Failure Reply) : State :=
  match awaited, reply with
  | _, .error cause => s.finish caller (.error cause)
  | .handshake, .ok _ => onReady s caller ask
  | .run, .ok (.output streams) => s.finish caller (.ok (some streams))
  | .run, .ok .ready => s.finish caller (.error (.link .readyReplyToRun))

/-- The section of a call whose time is up. If the record is gone, whoever removed it has settled
the call, and that stands. An expired handshake leaves the context alone, an expired run costs
it. -/
def expire (s : State) (w : σ) (caller : Nat) (ask : Ask) (wait : Wait) : State × σ :=
  match s.record? wait.id, wait.awaited with
  | none, awaited =>
    (takeReply s caller ask awaited (wait.reply.getD (.error .resetInterrupted)), w)
  | some _, .handshake =>
    ((s.removeRecord wait.id).finish caller (.error (.initTimeout wait.budget)), w)
  | some _, .run =>
    let (s, w) := reset contexts (s.removeRecord wait.id) w
    (s.finish caller (.error (.executionTimeout wait.budget)), w)

/-- Lets a call go on by one section. A reply that is there comes before the clock; a call that has
noticed that its time is up goes by its record alone. -/
def proceed (s : State) (w : σ) (caller : Nat) : State × σ :=
  match s.calls[caller]? with
  | some ⟨ask, .admitted⟩ => dispatchRun contexts settings s w caller ask
  | some ⟨ask, .waiting wait⟩ =>
    if wait.expired then expire contexts s w caller ask wait
    else match wait.reply with
    | some reply => (takeReply s caller ask wait.awaited reply, w)
    | none =>
      if wait.deadline ≤ s.now then
        (s.setPhase caller (.waiting { wait with expired := true }), w)
      else (s, w)
  | _ => (s, w)

def begin (s : State) (w : σ) (ask : Ask) : State × σ :=
  let caller := s.calls.length
  let s := { s with calls := s.calls ++ [⟨ask, .admitted⟩] }
  seekReadiness contexts settings s w caller ask

def responseName : Response.Kind → String
  | .ready => "Ready"
  | .result _ _ => "Result"
  | .failure _ => "Failure"

/-- Matches a response of the live context with the record of its id. A failed handshake costs the
context, since its runner never recovers. -/
def onResponse (s : State) (w : σ) (response : Response) : State × σ :=
  match s.record? response.id with
  | none => (s, w)
  | some record =>
    let s := s.removeRecord response.id
    match record.awaited, response.kind with
    | .handshake, .ready =>
      let live := s.live.map fun live => { live with ready := true }
      ({ s with live }.settle record.caller (.ok .ready), w)
    | .handshake, .failure message =>
      reset contexts (s.settle record.caller (.error (.bootstrapFailure message))) w
    | .run, .result stdout stderr =>
      (s.settle record.caller (.ok (.output ⟨stdout, stderr⟩)), w)
    | .run, .failure message => (s.settle record.caller (.error (.executionFailure message)), w)
    | awaited, kind =>
      (s.settle record.caller (.error (.link (.mismatched (responseName kind) awaited))), w)

def onEvent (s : State) (w : σ) (generation : Nat) (event : Event) : State × σ :=
  if s.live.map Live.generation = some generation then
    match event with
    | .response response => onResponse contexts s w response
    | .crashed _ => reset contexts s w
  else (s, w)

/-- Gives up a call. Its record, if it has one, stays in the table. -/
def cancel (s : State) (caller : Nat) : State :=
  match s.phase? caller with
  | some phase => if phase.isActive then s.setPhase caller .cancelled else s
  | none => s

def drop (s : State) (w : σ) : State × σ :=
  if s.calls.any (·.phase.isActive) then (s, w)
  else
    let (s, w) := reset contexts s w
    ({ s with dropped := true }, w)

inductive Action
  | begin (ask : Ask)
  | proceed (caller : Nat)
  | cancel (caller : Nat)
  | event (generation : Nat) (event : Event)
  | reset
  | advance (span : Duration)
  | drop
deriving DecidableEq

def step : State × σ → Action → State × σ
  | (s, w), .begin ask => if s.dropped then (s, w) else begin contexts settings s w ask
  | (s, w), .proceed caller => proceed contexts settings s w caller
  | (s, w), .cancel caller => (cancel s caller, w)
  | (s, w), .event generation event => onEvent contexts s w generation event
  | (s, w), .reset => if s.dropped then (s, w) else reset contexts s w
  | (s, w), .advance span => ({ s with now := s.now + span }, w)
  | (s, w), .drop => drop contexts s w

def run (start : State × σ) (actions : List Action) : State × σ :=
  actions.foldl (step contexts settings) start

end

end Sandbox.Client

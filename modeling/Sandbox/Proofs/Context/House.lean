import Sandbox.Proofs.Client.Snippet
import Sandbox.Proofs.Context.Serving

namespace Sandbox.Context

open Client (Effect Event sentTo)
open Runner (Call Execution Service Task)

structure Station where
  thread : Thread
  mail : List Event := []
  gone : Bool := false

structure Deed where
  generation : Nat
  caller : Nat
  task : Option Task
  execution : Execution

/-- The threads by generation. What becomes of an attempt to spawn one is up to `births`: a reason
why it fails, or the time on the clock of the new thread. -/
structure House (σ : Type) where
  engines : σ
  births : Nat → Except String Duration
  stations : Nat → Option Station := fun _ => none
  deeds : List Deed := []

namespace Station

def spawned (now : Duration) : Station :=
  { thread := { service := Service.start { runner := { now } } } }

abbrev runner (station : Station) : Runner.State := station.thread.service.runner

end Station

namespace House

variable {σ : Type}

def put (h : House σ) (generation : Nat) (station : Station) : House σ :=
  { h with stations := fun i => if i = generation then some station else h.stations i }

def create (h : House σ) (generation : Nat) : Except Failure Unit × House σ :=
  match h.births generation with
  | .error reason =>
    (.error (.link (.reported ("Failed to spawn context thread: " ++ reason))), h)
  | .ok now => (.ok (), h.put generation (.spawned now))

def post (h : House σ) (generation : Nat) (request : Request) : Except Failure Unit × House σ :=
  match h.stations generation with
  | none => (.error (.link .contextDestroyed), h)
  | some ⟨thread, mail, gone⟩ => match thread.post request with
    | (.error cause, _) => (.error cause, h)
    | (.ok (), thread) =>
      if gone then (.error (.link (.reported "Context thread has exited")), h)
      else (.ok (), h.put generation ⟨thread, mail, gone⟩)

def destroy (h : House σ) (generation : Nat) : House σ :=
  match h.stations generation with
  | none => h
  | some ⟨thread, mail, gone⟩ => h.put generation ⟨thread.destroy, mail, gone⟩

def contexts : Client.Contexts (House σ) := ⟨create, post, destroy⟩

def poll (provider : Engine.Provider σ) (budget : Duration) (h : House σ) (generation : Nat)
    (station : Station) (caller : Nat) : House σ :=
  let (thread, engines, executed) :=
    station.thread.poll (Runner.observed provider) budget (h.engines, []) caller
  let task := station.runner.calls[caller]?.map Call.task
  { h.put generation { station with thread } with
    engines
    deeds := h.deeds ++ executed.map (⟨generation, caller, task, ·⟩) }

/-- A thread does something on its own. Posting to it and destroying it is up to the client. -/
def stir (provider : Engine.Provider σ) (budget : Duration) (h : House σ) (generation : Nat)
    (station : Station) : Thread.Action → House σ
  | .post _ | .destroy => h
  | .poll caller => h.poll provider budget generation station caller
  | action =>
    let (sent, thread, _) := Thread.step provider budget (station.thread, h.engines) action
    h.put generation { station with thread, mail := station.mail ++ sent.map .response }

def log (h : House σ) (generation : Nat) : List (Nat × Execution) :=
  (h.deeds.filter (·.generation = generation)).map fun deed => (deed.caller, deed.execution)

theorem mem_log {h : House σ} {generation caller : Nat} {execution : Execution} :
    (caller, execution) ∈ h.log generation ↔ ∃ deed ∈ h.deeds,
      deed.generation = generation ∧ deed.caller = caller ∧ deed.execution = execution := by
  simp [log, and_assoc]

def Answered (h : House σ) (generation : Nat) (response : Response) : Prop :=
  ∃ station, h.stations generation = some station ∧ station.runner.Answered response

end House

/-! ## What threads keep to -/

structure Station.Honest (requests : List Request) (log : List (Nat × Execution))
    (station : Station) : Prop where
  serves : station.thread.Serves requests log
  mail : ∀ response, .response response ∈ station.mail → station.runner.Answered response

theorem Station.Honest.after {requests : List Request} {log : List (Nat × Execution)}
    {station : Station} (honest : station.Honest requests log) {thread : Thread}
    {requests' : List Request} {log' : List (Nat × Execution)} {sent : List Response}
    (serves : thread.Serves requests' log')
    (extended : station.runner.Extends thread.service.runner)
    (answered : ∀ response ∈ sent, thread.service.runner.Answered response) :
    Honest requests' log'
      { station with thread, mail := station.mail ++ sent.map Event.response } := by
  refine ⟨serves, ?_⟩
  intro response member
  rcases List.mem_append.mp member with old | new
  · exact extended.answered (honest.mail response old)
  · obtain ⟨response', now, same⟩ := List.mem_map.mp new
    cases same
    exact answered response now

def Deed.IsOf (deed : Deed) (runner : Runner.State) : Prop :=
  ∃ task phase, runner.calls[deed.caller]? = some ⟨task, phase⟩ ∧ deed.task = some task

theorem Deed.IsOf.extend {deed : Deed} {runner runner' : Runner.State} (of : deed.IsOf runner)
    (extended : runner.Extends runner') : deed.IsOf runner' := by
  obtain ⟨task, phase, found, same⟩ := of
  obtain ⟨phase', found', -⟩ := extended _ _ _ found
  exact ⟨task, phase', found', same⟩

/-- The house after a client has done this with it, and was told those answers. -/
structure House.Kept {σ : Type} (done : List Effect) (told : List (Nat × Response)) (h : House σ) :
    Prop where
  honest : ∀ (generation : Nat) (station : Station), h.stations generation = some station →
    station.Honest (sentTo done generation) (h.log generation)
  vacant : ∀ generation, h.stations generation = none →
    sentTo done generation = [] ∧ h.log generation = []
  deeds : ∀ deed ∈ h.deeds, ∃ station, h.stations deed.generation = some station ∧
    deed.IsOf station.runner
  born : ∀ (generation : Nat) (station : Station), h.stations generation = some station →
    generation ∈ done.filterMap Effect.creation?
  told : ∀ entry ∈ told, h.Answered entry.1 entry.2
  faults : ∀ effect ∈ done, ∀ cause, effect.cause? = some cause → ∃ fault, cause = .link fault

namespace House.Kept

variable {σ : Type} {done : List Effect} {told : List (Nat × Response)} {h : House σ}

theorem silent (kept : h.Kept done told) (more : List Effect)
    (unsent : ∀ generation, sentTo more generation = [])
    (faults : ∀ effect ∈ more, ∀ cause, effect.cause? = some cause → ∃ fault, cause = .link fault) :
    h.Kept (done ++ more) told := by
  have same : ∀ generation, sentTo (done ++ more) generation = sentTo done generation := by
    intro generation
    rw [Client.sentTo_append, unsent, List.append_nil]
  refine ⟨?_, ?_, kept.deeds, ?_, kept.told, ?_⟩
  · intro generation station held
    exact same generation ▸ kept.honest generation station held
  · intro generation absent
    exact same generation ▸ kept.vacant generation absent
  · intro generation station held
    rw [List.filterMap_append]
    exact List.mem_append_left _ (kept.born generation station held)
  · intro effect member
    rcases List.mem_append.mp member with old | new
    · exact kept.faults effect old
    · exact faults effect new

theorem moved (kept : h.Kept done told) {generation : Nat} {station : Station}
    (more : List Effect) (executed : List Deed) (engines : σ)
    (extended : ∀ before, h.stations generation = some before →
      before.runner.Extends station.runner)
    (born : generation ∈ (done ++ more).filterMap Effect.creation?)
    (honest : station.Honest (sentTo done generation ++ sentTo more generation)
      (h.log generation ++ executed.map fun deed => (deed.caller, deed.execution)))
    (own : ∀ deed ∈ executed, deed.generation = generation ∧ deed.IsOf station.runner)
    (elsewhere : ∀ other, generation ≠ other → sentTo more other = [])
    (faults : ∀ effect ∈ more, effect.cause? = none) :
    { h.put generation station with engines, deeds := h.deeds ++ executed }.Kept (done ++ more)
      told := by
  have log : ∀ other, House.log { h.put generation station with
      engines, deeds := h.deeds ++ executed } other = h.log other ++
      if generation = other then executed.map fun deed => (deed.caller, deed.execution)
      else [] := by
    intro other
    rw [House.log, List.filter_append, List.map_append]
    congr 1
    split
    · rename_i same
      rw [List.filter_eq_self.mpr]
      exact fun deed member => by simp [(own deed member).1, same]
    · rename_i different
      rw [List.filter_eq_nil_iff.mpr, List.map_nil]
      exact fun deed member => by simp [(own deed member).1, different]
  have other_sent : ∀ other, generation ≠ other →
      sentTo (done ++ more) other = sentTo done other := by
    intro other different
    rw [Client.sentTo_append, elsewhere other different, List.append_nil]
  refine ⟨?_, ?_, ?_, ?_, ?_, ?_⟩
  · intro other station' held
    rw [log]
    by_cases same : generation = other
    · subst same
      obtain rfl : station = station' := by simpa [House.put] using held
      rw [if_pos rfl, Client.sentTo_append]
      exact honest
    · rw [if_neg same, List.append_nil, other_sent other same]
      refine kept.honest other station' ?_
      simpa [House.put, Ne.symm same] using held
  · intro other absent
    rw [log]
    by_cases same : generation = other
    · simp [House.put, same] at absent
    · rw [if_neg same, List.append_nil, other_sent other same]
      refine kept.vacant other ?_
      simpa [House.put, Ne.symm same] using absent
  · intro deed member
    rcases List.mem_append.mp member with old | new
    · obtain ⟨station', held, of⟩ := kept.deeds deed old
      by_cases same : deed.generation = generation
      · exact ⟨station, by simp [House.put, same], of.extend (extended station' (same ▸ held))⟩
      · exact ⟨station', by simp [House.put, same, held], of⟩
    · obtain ⟨same, of⟩ := own deed new
      exact ⟨station, by simp [House.put, same], of⟩
  · intro other station' held
    by_cases same : other = generation
    · exact same ▸ born
    · rw [List.filterMap_append]
      refine List.mem_append_left _ (kept.born other station' ?_)
      simpa [House.put, same] using held
  · rintro ⟨other, response⟩ member
    obtain ⟨station', held, answered⟩ := kept.told _ member
    dsimp only at held answered
    by_cases same : other = generation
    · exact ⟨station, by simp [House.put, same], (extended station' (same ▸ held)).answered answered⟩
    · exact ⟨station', by simp [House.put, same, held], answered⟩
  · intro effect member cause failure
    rcases List.mem_append.mp member with old | new
    · exact kept.faults effect old cause failure
    · exact nomatch (faults effect new).symm.trans failure

theorem replaced (kept : h.Kept done told) {generation : Nat} {station station' : Station}
    (held : h.stations generation = some station)
    (extended : station.runner.Extends station'.runner)
    (honest : station'.Honest (sentTo done generation) (h.log generation)) :
    (h.put generation station').Kept done told := by
  have only : ∀ before, h.stations generation = some before →
      before.runner.Extends station'.runner := by
    intro before same
    cases held.symm.trans same
    exact extended
  have born := kept.born generation station held
  rw [← List.append_nil done] at born
  have moved := kept.moved [] [] h.engines only born (by simpa [sentTo] using honest) (by simp)
    (fun _ _ => rfl) (by simp)
  rw [List.append_nil, List.append_nil] at moved
  exact moved

/-! ## What the client does -/

theorem create (kept : h.Kept done told) {generation : Nat}
    (fresh : generation ∉ done.filterMap Effect.creation?) {result : Except Failure Unit}
    {h' : House σ} (created : h.create generation = (result, h')) :
    h'.Kept (done ++ [.created generation result]) told := by
  have vacant : h.stations generation = none := by
    refine Option.eq_none_iff_forall_ne_some.mpr ?_
    exact fun station held => fresh (kept.born generation station held)
  rw [House.create] at created
  split at created
  · cases created
    exact kept.silent _ (fun _ => rfl) (by simp [Effect.cause?])
  · cases created
    obtain ⟨unsent, idle⟩ := kept.vacant generation vacant
    rename_i now born
    have new : Station.Honest [] [] (.spawned now) := ⟨.begin now, by simp [Station.spawned]⟩
    have only : ∀ before, h.stations generation = some before →
        before.runner.Extends (Station.spawned now).runner :=
      fun before held => nomatch vacant.symm.trans held
    have honest : Station.Honest (sentTo done generation ++ []) (h.log generation ++ [])
        (.spawned now) := by
      rwa [unsent, idle]
    have moved := kept.moved [.created generation (.ok ())] [] h.engines only
      (by simp [Effect.creation?]) honest (by simp) (fun _ _ => rfl) (by simp [Effect.cause?])
    rw [List.append_nil] at moved
    exact moved

theorem destroy (kept : h.Kept done told) (generation : Nat) :
    (h.destroy generation).Kept (done ++ [.destroyed generation]) told := by
  have silent := kept.silent [.destroyed generation] (fun _ => rfl) (by simp [Effect.cause?])
  rw [House.destroy]
  split
  · exact silent
  · rename_i thread mail gone held
    have honest := silent.honest generation _ held
    exact silent.replaced held (.refl _) ⟨honest.serves.destroy, honest.mail⟩

theorem post (kept : h.Kept done told) {generation : Nat} {request : Request}
    {result : Except Failure Unit} {h' : House σ}
    (posted : h.post generation request = (result, h')) :
    h'.Kept (done ++ [.posted generation request result]) told := by
  have refused : ∀ fault, h.Kept (done ++ [.posted generation request (.error (.link fault))])
      told := by
    intro fault
    exact kept.silent _ (fun _ => rfl) (by simp [Effect.cause?])
  rw [House.post] at posted
  split at posted
  · cases posted
    exact refused _
  · rename_i thread mail gone held
    split at posted
    · rename_i cause same declined
      cases posted
      obtain ⟨-, rfl⟩ := Thread.Serves.post_refused declined
      exact refused _
    · rename_i thread' taken
      split at posted
      · cases posted
        exact refused _
      · cases posted
        have honest := kept.honest generation _ held
        obtain ⟨serves, same⟩ := honest.serves.post taken
        have extended : thread.service.runner.Extends thread'.service.runner :=
          .of_calls (congrArg _ same)
        have only : ∀ before, h.stations generation = some before →
            before.runner.Extends thread'.service.runner := by
          intro before held'
          cases held.symm.trans held'
          exact extended
        have told' : Station.Honest (sentTo done generation ++
            sentTo [.posted generation request (.ok ())] generation) (h.log generation ++ [])
            ⟨thread', mail, gone⟩ := by
          rw [Client.sentTo_posted, if_pos rfl, List.append_nil]
          exact ⟨serves, fun response member => extended.answered (honest.mail response member)⟩
        have born := kept.born generation _ held
        have moved := kept.moved [.posted generation request (.ok ())] [] h.engines only
          (by simp [born]) told' (by simp) ?_ (by simp [Effect.cause?])
        · rw [List.append_nil] at moved
          exact moved
        · intro other different
          rw [Client.sentTo_posted, if_neg different]

/-! ## What threads do -/

theorem poll (kept : h.Kept done told) {generation : Nat} {station : Station}
    (held : h.stations generation = some station) (provider : Engine.Provider σ)
    (budget : Duration) (caller : Nat) :
    (h.poll provider budget generation station caller).Kept done told := by
  have honest := kept.honest generation station held
  obtain ⟨thread, engines, executed, eq, plain, serves, extended, tasks⟩ :=
    honest.serves.poll provider budget h.engines caller
  have only : ∀ before, h.stations generation = some before →
      before.runner.Extends thread.service.runner := by
    intro before same
    cases held.symm.trans same
    exact extended
  have born := kept.born generation station held
  rw [← List.append_nil done] at born
  let task := station.runner.calls[caller]?.map Call.task
  let deeds : List Deed := executed.map (⟨generation, caller, task, ·⟩)
  have own : ∀ deed ∈ deeds, deed.generation = generation ∧ deed.IsOf thread.service.runner := by
    intro deed member
    obtain ⟨execution, ran, rfl⟩ := List.mem_map.mp member
    have logged : (caller, execution) ∈ h.log generation ++
        executed.map fun execution => (caller, execution) :=
      List.mem_append_right _ (List.mem_map_of_mem ran)
    obtain ⟨id, phase, found, -⟩ := serves.accounted.ran _ logged
    have same := congrArg (fun tasks => tasks[caller]?) tasks
    simp only [List.getElem?_map] at same
    exact ⟨rfl, _, phase, found, same.symm.trans (congrArg _ found)⟩
  have honest' : Station.Honest (sentTo done generation ++ [])
      (h.log generation ++ deeds.map fun deed => (deed.caller, deed.execution))
      ⟨thread, station.mail, station.gone⟩ := by
    rw [List.append_nil, List.map_map]
    exact ⟨serves, fun response member => extended.answered (honest.mail response member)⟩
  have moved := kept.moved [] deeds engines only born honest' own (fun _ _ => rfl) (by simp)
  rw [List.append_nil] at moved
  simp only [House.poll, eq]
  exact moved

theorem stir (kept : h.Kept done told) {generation : Nat} {station : Station}
    (held : h.stations generation = some station) (provider : Engine.Provider σ)
    (budget : Duration) (action : Thread.Action) :
    (h.stir provider budget generation station action).Kept done told := by
  have honest := kept.honest generation station held
  cases action with
  | post request => exact kept
  | destroy => exact kept
  | poll caller => exact kept.poll held provider budget caller
  | receive =>
    obtain ⟨serves, extended⟩ := honest.serves.receive
    exact kept.replaced held extended (honest.after serves extended (by simp))
  | forward =>
    obtain ⟨serves, same, sent⟩ := honest.serves.forward
    have extended : station.runner.Extends station.thread.forward.2.service.runner :=
      .of_calls (congrArg _ same)
    exact kept.replaced held extended (honest.after serves extended (same ▸ sent))
  | deliver slot mail =>
    obtain ⟨calls, outcome, halted⟩ := Runner.deliver_calls station.runner slot mail
    obtain ⟨serves, extended⟩ := honest.serves.onRunner
      (fun runner => (Runner.deliver runner slot mail).2) calls outcome halted
    exact kept.replaced held extended (honest.after serves extended (by simp))
  | advance span =>
    obtain ⟨serves, extended⟩ := honest.serves.onRunner
      (fun runner => { runner with now := runner.now + span }) rfl rfl rfl
    exact kept.replaced held extended (honest.after serves extended (by simp))

/-- A house does what its threads do, and keeps a record of it. -/
theorem stir_step (kept : h.Kept done told) {generation : Nat} {station : Station}
    (held : h.stations generation = some station) (provider : Engine.Provider σ)
    (budget : Duration) {action : Thread.Action} {sent : List Response} {thread : Thread}
    {engines : σ} (own : ∀ request, action ≠ .post request) (own' : action ≠ .destroy)
    (steps : Thread.step provider budget (station.thread, h.engines) action =
      (sent, thread, engines)) :
    ∃ deeds, h.stir provider budget generation station action =
      { h.put generation { station with thread, mail := station.mail ++ sent.map .response } with
        engines, deeds } := by
  cases action with
  | post request => exact absurd rfl (own request)
  | destroy => exact absurd rfl own'
  | poll caller =>
    have honest := kept.honest generation station held
    obtain ⟨thread', engines', executed, eq, plain, -⟩ :=
      honest.serves.poll provider budget h.engines caller
    rw [Thread.step, plain] at steps
    cases steps
    simp only [House.stir, House.poll, eq, List.map_nil, List.append_nil]
    exact ⟨_, rfl⟩
  | _ =>
    cases steps
    exact ⟨h.deeds, rfl⟩

end House.Kept

end Sandbox.Context

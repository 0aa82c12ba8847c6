import Mathlib.Data.List.Induction
import Sandbox.Identity
import Sandbox.Proofs.Client.Isolation

namespace Sandbox.Client

/-- An event of a context that is not the live one, or an answer under an id that is not in the
table, that has left it, or that is the one of warm-ups. -/
inductive Stray (past : List Transition) (s : State) : Nat → Event → Prop
  | retired {generation : Nat} {event : Event} (other : s.current? ≠ some generation) :
    Stray past s generation event
  | unknown {generation : Nat} {response : Response}
    (absent : ∀ record ∈ s.pending, record.id ≠ response.id) :
    Stray past s generation (.response response)
  | departed {generation : Nat} {response : Response} {record : Record}
    (gone : record ∈ departures past) (same : record.id = response.id) :
    Stray past s generation (.response response)
  | warmup {generation : Nat} (kind : Response.Kind) :
    Stray past s generation (.response ⟨.warmup, kind⟩)

section
variable {σ : Type} (contexts : Contexts σ) {settings : Settings} {past : List Transition}
  {s : State}

theorem Orderly.not_pending_of_unissued (orderly : Orderly settings past s) {id : CorrelationId}
    (unissued : ∀ n, settings.ids n ≠ id) : ∀ record ∈ s.pending, record.id ≠ id := by
  intro record held same
  obtain ⟨n, -, issued⟩ := orderly.issued record (orderly.pending_registered held)
  exact unissued n (issued.symm.trans same)

theorem onResponse_unmatched {response : Response} (w : σ)
    (absent : ∀ record ∈ s.pending, record.id ≠ response.id) :
    onResponse contexts s w response = (s, w) := by
  have unmatched : s.record? response.id = none := by
    simpa [State.record?] using absent
  rw [onResponse, unmatched]

theorem Stray.onEvent {generation : Nat} {event : Event} (stray : Stray past s generation event)
    (orderly : Orderly settings past s) (reserved : ∀ n, settings.ids n ≠ .warmup) (w : σ) :
    onEvent contexts s w generation event = (s, w) := by
  unfold Client.onEvent
  split
  · rename_i current
    cases stray with
    | retired other => exact absurd current other
    | unknown absent => exact onResponse_unmatched contexts w absent
    | departed gone same =>
      exact onResponse_unmatched contexts w (same ▸ orderly.not_pending_of_departed gone)
    | warmup kind =>
      exact onResponse_unmatched contexts w (orderly.not_pending_of_unissued reserved)
  · rfl

end

inductive Arrival
  | due (action : Action)
  | stray (generation : Nat) (event : Event)

namespace Arrival

def action : Arrival → Action
  | due action => action
  | stray generation event => .event generation event

def due? : Arrival → Option Action
  | due action => some action
  | stray _ _ => none

end Arrival

section
variable {σ : Type} (contexts : Contexts σ) (settings : Settings)

structure Alike (start : State × σ) (strewn actions : List Action) : Prop where
  reached : run contexts settings start strewn = run contexts settings start actions
  done : (trace contexts settings start strewn).flatMap Transition.effects =
    (trace contexts settings start actions).flatMap Transition.effects

variable {contexts settings} {start : State × σ} {strewn actions : List Action}

theorem Alike.due (alike : Alike contexts settings start strewn actions) (action : Action) :
    Alike contexts settings start (strewn ++ [action]) (actions ++ [action]) := by
  constructor
  · rw [run_append, run_append, alike.reached]
  · rw [trace_append, trace_append, List.flatMap_append, List.flatMap_append, alike.done,
      alike.reached]

theorem Alike.stray (alike : Alike contexts settings start strewn actions) {past : List Transition}
    {generation : Nat} {event : Event}
    (stray : Stray past (run contexts settings start strewn).1 generation event)
    (orderly : Orderly settings past (run contexts settings start strewn).1)
    (reserved : ∀ n, settings.ids n ≠ .warmup) :
    Alike contexts settings start (strewn ++ [.event generation event]) actions := by
  constructor
  · rw [run_append, ← alike.reached]
    exact stray.onEvent contexts orderly reserved _
  · have still := stray.onEvent contexts.recorded orderly reserved
      ((run contexts settings start strewn).2, [])
    have silent : (transition contexts settings (run contexts settings start strewn).1
        (run contexts settings start strewn).2 (.event generation event)).effects = [] := by
      simp only [transition, step, still]
    rw [trace_append, List.flatMap_append, ← alike.done]
    simp [trace, silent]

end

/-- If ids are never issued twice and never that of warm-ups, strays change nothing: at every moment
the run with them is where the run without them is. -/
theorem strays_unnoticed {σ : Type} (contexts : Contexts σ) (settings : Settings)
    (distinct : Function.Injective settings.ids) (reserved : ∀ n, settings.ids n ≠ .warmup) (w : σ)
    (arrivals : List Arrival)
    (strays : ∀ earlier generation event later,
      arrivals = earlier ++ .stray generation event :: later →
      Stray (trace contexts settings ({}, w) (earlier.map Arrival.action))
        (run contexts settings ({}, w) (earlier.map Arrival.action)).1 generation event) :
    ∀ earlier later, arrivals = earlier ++ later →
      Alike contexts settings ({}, w) (earlier.map Arrival.action)
        (earlier.filterMap Arrival.due?) := by
  intro earlier
  induction earlier using List.reverseRecOn with
  | nil => exact fun _ _ => ⟨rfl, rfl⟩
  | append_singleton earlier arrival ih =>
    intro later split
    rw [List.append_assoc] at split
    have alike := ih _ split
    rw [List.map_append, List.filterMap_append]
    cases arrival with
    | due action => exact alike.due action
    | stray generation event =>
      have course := course_of_run contexts settings w (earlier.map Arrival.action)
      change Alike contexts settings _ _ (_ ++ [])
      rw [List.append_nil]
      exact alike.stray (strays _ _ _ _ split) (course.orderly distinct) reserved

def litter : List Arrival :=
  [.due (.begin (.ready ⟨1⟩)), .stray 1 (.response ⟨.warmup, .failure "late"⟩),
    .due (.event 1 (.response ⟨counted.ids 0, .ready⟩)),
    .stray 1 (.response ⟨counted.ids 0, .failure "again"⟩),
    .due .reset, .stray 1 (.crashed "gone"), .due (.proceed 0)]

theorem strays_unnoticed_litter :
    (∀ n, counted.ids n ≠ .warmup) ∧
    Alike willing counted ({}, ()) (litter.map Arrival.action) (litter.filterMap Arrival.due?) ∧
    (run willing counted ({}, ()) (litter.map Arrival.action)).1.phase? 0 =
      some (.finished (.ok none)) := by
  have reserved : ∀ n, counted.ids n ≠ .warmup := by
    intro n same
    have letters := String.ofList_inj.mp ((congrArg CorrelationId.text same).trans
      (String.ofList_toList (s := CorrelationId.warmup.text)).symm)
    have first : 'h' ∈ List.replicate n 'x' := by
      rw [letters]
      decide
    exact absurd (List.eq_of_mem_replicate first) (by decide)
  refine ⟨reserved, ?_, rfl⟩
  refine strays_unnoticed willing counted counted_injective reserved () litter ?_ litter [] rfl
  intro earlier generation event later split
  rcases earlier with _ | ⟨a, _ | ⟨b, _ | ⟨c, _ | ⟨d, _ | ⟨e, _ | ⟨f, _ | ⟨g, rest⟩⟩⟩⟩⟩⟩⟩ <;>
    simp [litter] at split
  · obtain ⟨rfl, ⟨rfl, rfl⟩, rfl⟩ := split
    exact .warmup _
  · obtain ⟨rfl, rfl, rfl, ⟨rfl, rfl⟩, rfl⟩ := split
    have same : (⟨counted.ids 0, .handshake, 0⟩ : Record).id = counted.ids 0 := rfl
    exact .departed (by decide) same
  · obtain ⟨rfl, rfl, rfl, rfl, rfl, ⟨rfl, rfl⟩, rfl⟩ := split
    exact .retired (by decide)

end Sandbox.Client

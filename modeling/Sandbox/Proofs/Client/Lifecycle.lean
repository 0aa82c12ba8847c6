import Sandbox.Proofs.Client.Isolation

namespace Sandbox.Client

/-! ## Custody -/

inductive Custody : Option Nat → List Effect → Option Nat → Prop
  | idle (held : Option Nat) : Custody held [] held
  | missed {generation : Nat} {cause : Failure} {rest : List Effect} {held : Option Nat}
    (next : Custody none rest held) : Custody none (.created generation (.error cause) :: rest) held
  | created {generation : Nat} {rest : List Effect} {held : Option Nat}
    (next : Custody (some generation) rest held) :
    Custody none (.created generation (.ok ()) :: rest) held
  | posted {generation : Nat} {request : Request} {result : Except Failure Unit}
    {rest : List Effect} {held : Option Nat} (next : Custody (some generation) rest held) :
    Custody (some generation) (.posted generation request result :: rest) held
  | destroyed {generation : Nat} {rest : List Effect} {held : Option Nat}
    (next : Custody none rest held) :
    Custody (some generation) (.destroyed generation :: rest) held

def Effect.opening? : Effect → Option Nat
  | .created generation (.ok ()) => some generation
  | _ => none

def Effect.ending? : Effect → Option Nat
  | .destroyed generation => some generation
  | _ => none

def opened (effects : List Effect) : List Nat := effects.filterMap Effect.opening?

def ended (effects : List Effect) : List Nat := effects.filterMap Effect.ending?

theorem opened_sublist (effects : List Effect) :
    (opened effects).Sublist (effects.filterMap Effect.creation?) := by
  induction effects with
  | nil => exact .slnil
  | cons effect rest ih =>
    rcases effect with ⟨generation, cause | ⟨⟨⟩⟩⟩ | _ | _
    · exact .cons _ ih
    · exact .cons_cons _ ih
    · exact ih
    · exact ih

namespace Custody

variable {first second third : Option Nat} {effects more : List Effect}

theorem append (custody : Custody first effects second) (later : Custody second more third) :
    Custody first (effects ++ more) third := by
  induction custody with
  | idle held => exact later
  | missed next ih => exact .missed (ih later)
  | created next ih => exact .created (ih later)
  | posted next ih => exact .posted (ih later)
  | destroyed next ih => exact .destroyed (ih later)

theorem split (custody : Custody first (effects ++ more) third) :
    ∃ second, Custody first effects second ∧ Custody second more third := by
  induction effects generalizing first with
  | nil => exact ⟨first, .idle first, custody⟩
  | cons effect rest ih =>
    cases custody with
    | missed next =>
      obtain ⟨second, upto, after⟩ := ih next
      exact ⟨second, .missed upto, after⟩
    | created next =>
      obtain ⟨second, upto, after⟩ := ih next
      exact ⟨second, .created upto, after⟩
    | posted next =>
      obtain ⟨second, upto, after⟩ := ih next
      exact ⟨second, .posted upto, after⟩
    | destroyed next =>
      obtain ⟨second, upto, after⟩ := ih next
      exact ⟨second, .destroyed upto, after⟩

theorem balance (custody : Custody first effects second) :
    first.toList ++ opened effects = ended effects ++ second.toList := by
  induction custody with
  | idle held => simp [opened, ended]
  | missed next ih => exact ih
  | created next ih => exact ih
  | posted next ih => exact ih
  | destroyed next ih => exact congrArg (List.cons _) ih

theorem posted_to {generation : Nat} {request : Request} {result : Except Failure Unit}
    (custody : Custody first effects second)
    (posted : .posted generation request result ∈ effects) :
    generation ∈ first.toList ++ opened effects := by
  induction custody with
  | idle held => cases posted
  | missed next ih | created next ih =>
    rcases List.mem_cons.mp posted with now | later
    · cases now
    · exact ih later
  | posted next ih =>
    rcases List.mem_cons.mp posted with now | later
    · cases now
      exact List.mem_append_left _ (List.mem_singleton_self _)
    · exact ih later
  | destroyed next ih =>
    rcases List.mem_cons.mp posted with now | later
    · cases now
    · exact List.mem_append_right _ (ih later)

end Custody

/-! ## What an action does with contexts -/

theorem current?_cleared (s : State) : s.cleared.current? = none :=
  congrArg (Option.map Live.generation) (cleared_live s)

theorem State.teardown_custody (s : State) : Custody s.current? s.teardown none := by
  rw [current?, teardown]
  cases s.live with
  | none => exact .idle none
  | some live => exact .destroyed (.idle none)

theorem Provision.custody {s provided : State} {effects : List Effect}
    (provision : Provision s effects provided) :
    Custody s.current? effects provided.current? := by
  cases provision with
  | kept held => exact .idle _
  | fresh absent =>
    rw [State.current?, absent]
    exact .created (.posted (.idle _))

theorem Dispatch.custody {settings : Settings} {s s' : State} {caller : Nat} {awaited : Awaited}
    {kind : Request.Kind} {budget : Duration} {effects : List Effect}
    (dispatch : Dispatch settings s caller awaited kind budget effects s') :
    Custody s.current? effects s'.current? := by
  cases dispatch with
  | @registered live held =>
    have current : s.current? = some live.generation := congrArg _ held
    exact current ▸ .posted (.idle _)
  | @unposted live held cause =>
    have current : s.current? = some live.generation := congrArg _ held
    exact current ▸ current?_cleared _ ▸ .posted (.destroyed (.idle _))

section
variable {settings : Settings} {s s' : State} {action : Action} {effects : List Effect}

theorem Change.custody (change : Change settings s action effects s') :
    Custody s.current? effects s'.current? := by
  cases change with
  | reset | crashed current => exact current?_cleared s ▸ s.teardown_custody
  | dropped => exact current?_cleared s ▸ s.teardown_custody
  | failed current found handshake => exact current?_cleared _ ▸ s.teardown_custody
  | overran found expired held run => exact current?_cleared _ ▸ s.teardown_custody
  | @answered generation response record current found survives =>
    have same : (({ s.removeRecord response.id with
        live := s.live.map (Live.told record.awaited response.kind) } : State).settle record.caller
          (answer record.awaited response.kind)).current? = s.current? := by
      rw [State.settle_eq]
      simp [State.current?, Function.comp_def]
    exact same ▸ .idle _
  | sent found ready dispatch => exact dispatch.custody
  | uncreated absent cause =>
    have none_held : s.current? = none := congrArg _ absent
    exact none_held ▸ .missed (none_held ▸ .idle none)
  | unwarmed absent cause =>
    have none_held : s.current? = none := congrArg _ absent
    exact none_held ▸ .created (.posted (.destroyed (none_held ▸ .idle none)))
  | pinged provision unready dispatch => exact provision.custody.append dispatch.custody
  | _ => exact .idle _

end

section
variable {settings : Settings} {past : List Transition} {s : State}

theorem Course.custody (course : Course settings past s) :
    Custody none (past.flatMap Transition.effects) s.current? := by
  induction course with
  | start => exact .idle none
  | extend earlier change ih =>
    rw [List.flatMap_append, List.flatMap_singleton]
    exact ih.append change.custody

theorem Course.created (course : Course settings past s) :
    (past.flatMap Transition.effects).filterMap Effect.creation? =
      List.range' 1 s.generation := by
  rw [List.filterMap_flatMap]
  exact course.numbered.created

theorem Course.opened_increasing (course : Course settings past s) :
    (opened (past.flatMap Transition.effects)).Pairwise (· < ·) :=
  (course.created ▸ List.pairwise_lt_range').sublist (opened_sublist _)

end

/-! ## After the end of a client -/

structure State.Retired (s : State) : Prop where
  live : s.live = none
  pending : s.pending = []
  calls : ∀ (i : Nat) (call : Call), s.calls[i]? = some call → call.phase.isActive = false

section
variable {σ : Type} (contexts : Contexts σ) (settings : Settings)

/-- No action has an effect on a dropped client but the passing of time. `Change` does not tell:
it does not say that a dropped client begins no calls. -/
theorem step_of_retired {s : State} (w : σ) (dropped : s.dropped = true) (retired : s.Retired)
    (action : Action) : ∃ now, step contexts settings (s, w) action = ({ s with now }, w) := by
  obtain ⟨now, live, generation, issued, pending, calls, dropped'⟩ := s
  obtain ⟨rfl, rfl, finished⟩ := retired
  obtain rfl : dropped' = true := dropped
  cases action with
  | begin ask => exact ⟨now, rfl⟩
  | proceed caller =>
    refine ⟨now, ?_⟩
    simp only [step, proceed]
    split
    · rename_i ask found
      cases finished _ _ found
    · rename_i ask wait found
      cases finished _ _ found
    · rfl
  | cancel caller =>
    refine ⟨now, ?_⟩
    simp only [step, cancel]
    split
    · rename_i phase found
      obtain ⟨call, held, rfl⟩ := Option.map_eq_some_iff.mp found
      rw [if_neg (by simp [finished _ _ held])]
    · rfl
  | event generation event => exact ⟨now, rfl⟩
  | reset => exact ⟨now, rfl⟩
  | advance span => exact ⟨_, rfl⟩
  | drop =>
    refine ⟨now, ?_⟩
    simp only [step, drop]
    split <;> rfl

theorem Change.dropped_eq {s s' : State} {action : Action} {effects : List Effect}
    (change : Change settings s action effects s') (other : action ≠ .drop) :
    s'.dropped = s.dropped := by
  have cleared : ∀ s : State, s.cleared.dropped = s.dropped := by
    intro s
    obtain ⟨calls, eq⟩ := s.cleared_eq
    rw [eq]
  have dispatched : ∀ {s s' : State} {caller : Nat} {awaited : Awaited} {kind : Request.Kind}
      {budget : Duration} {effects : List Effect},
      Dispatch settings s caller awaited kind budget effects s' → s'.dropped = s.dropped := by
    intro s s' caller awaited kind budget effects dispatch
    cases dispatch with
    | registered held => rfl
    | unposted held cause => exact cleared _
  cases change with
  | reset | crashed current => exact cleared s
  | dropped => exact absurd rfl other
  | answered current found survives => rw [State.settle_eq]; rfl
  | failed current found handshake => rw [cleared, State.settle_eq]; rfl
  | overran found expired held run => exact cleared _
  | sent found ready dispatch => exact dispatched dispatch
  | pinged provision unready dispatch =>
    rw [dispatched dispatch]
    cases provision <;> rfl
  | _ => rfl

theorem Phase.isActive_given (reply : Except Failure Reply) (phase : Phase) :
    (phase.given reply).isActive = phase.isActive := by
  cases phase <;> rfl

theorem State.Retired.of_inactive {s : State}
    (inactive : s.calls.any (·.phase.isActive) = false) (dropped : Bool) :
    { s.cleared with dropped }.Retired := by
  refine ⟨cleared_live s, cleared_pending s, ?_⟩
  have finished : ∀ (i : Nat) (call : Call), s.calls[i]? = some call →
      call.phase.isActive = false := by
    intro i call found
    simpa using List.any_eq_false.mp inactive call (List.mem_of_getElem? found)
  intro i call found
  replace found : s.cleared.calls[i]? = some call := found
  rw [s.calls_cleared] at found
  split at found
  · obtain ⟨before, held, rfl⟩ := Option.map_eq_some_iff.mp found
    exact (Phase.isActive_given _ _).trans (finished i before held)
  · exact finished i call found

theorem step_retired {s : State} (w : σ) (kept : s.dropped = true → s.Retired) (action : Action)
    (dropped : (step contexts settings (s, w) action).1.dropped = true) :
    (step contexts settings (s, w) action).1.Retired := by
  by_cases before : s.dropped = true
  · obtain ⟨now, eq⟩ := step_of_retired contexts settings w before (kept before) action
    rw [eq]
    exact ⟨(kept before).live, (kept before).pending, (kept before).calls⟩
  · have changed := transition_change contexts settings s w action
    rw [transition_after] at changed
    by_cases last : action = .drop
    · subst last
      by_cases active : s.calls.any (·.phase.isActive) = true
      · simp only [step, drop, if_pos active] at dropped
        exact absurd dropped before
      · obtain ⟨torn, eq⟩ : ∃ torn, drop contexts s w = ({ s.cleared with dropped := true }, torn) :=
          ⟨_, by rw [drop, if_neg active]; rfl⟩
        rw [step, eq]
        exact .of_inactive (eq_false_of_ne_true active) true
    · exact absurd ((changed.dropped_eq settings last).symm.trans dropped) before

theorem run_retired (start : State × σ) (kept : start.1.dropped = true → start.1.Retired)
    (actions : List Action) (dropped : (run contexts settings start actions).1.dropped = true) :
    (run contexts settings start actions).1.Retired := by
  induction actions generalizing start with
  | nil => exact kept dropped
  | cons action rest ih => exact ih _ (step_retired contexts settings start.2 kept action) dropped

end

/-! ## Balance -/

structure Balanced (effects : List Effect) (s : State) : Prop where
  custody : Custody none effects s.current?
  steady : ∀ seen, seen <+: effects → ∃ held : Option Nat, opened seen = ended seen ++ held.toList
  live : opened effects = ended effects ++ s.current?.toList
  once : ∀ generation ∈ opened effects,
    (ended effects).count generation = if s.current? = some generation then 0 else 1
  dropped : s.dropped = true → s.live = none ∧ s.pending = [] ∧ ended effects = opened effects

theorem Custody.count_ended {effects : List Effect} {held : Option Nat}
    (custody : Custody none effects held) (distinct : (opened effects).Nodup) {generation : Nat}
    (created : generation ∈ opened effects) :
    (ended effects).count generation = if held = some generation then 0 else 1 := by
  have balance : opened effects = ended effects ++ held.toList := custody.balance
  rw [balance] at distinct created
  obtain ⟨once, -, apart⟩ := List.nodup_append.mp distinct
  split
  · rename_i current
    subst current
    exact List.count_eq_zero.mpr fun gone =>
      apart generation gone generation (List.mem_singleton_self _) rfl
  · rename_i other
    rcases List.mem_append.mp created with gone | current
    · exact List.count_eq_one_of_mem once gone
    · exact absurd (Option.mem_toList.mp current) other

/-- At every moment of every run, a client has at most one context that is created and not destroyed,
its live one; and nothing is left once it is dropped. -/
theorem contexts_balanced {σ : Type} (contexts : Contexts σ) (settings : Settings) (w : σ)
    (actions : List Action) :
    Balanced ((trace contexts settings ({}, w) actions).flatMap Transition.effects)
      (run contexts settings ({}, w) actions).1 := by
  have course := course_of_run contexts settings w actions
  have custody := course.custody
  refine ⟨custody, ?_, custody.balance, ?_, ?_⟩
  · rintro seen ⟨rest, split⟩
    rw [← split] at custody
    obtain ⟨held, upto, -⟩ := custody.split
    exact ⟨held, upto.balance⟩
  · intro generation created
    exact custody.count_ended (course.opened_increasing.imp Nat.ne_of_lt) created
  · intro dropped
    obtain ⟨live, pending, -⟩ := run_retired contexts settings ({}, w) nofun actions dropped
    have balance := custody.balance
    rw [State.current?, live] at balance
    exact ⟨live, pending, (balance.trans (List.append_nil _)).symm⟩

def frail : Contexts Nat where
  create posts _ := (.ok (), posts)
  post posts _ _ := match posts with
    | 0 => (.error .notReady, 0)
    | posts + 1 => (.ok (), posts)
  destroy posts _ := posts

def decline : List Action :=
  [.begin (.ready ⟨1⟩), .event 1 (.crashed "gone"), .proceed 0, .begin (.ready ⟨1⟩), .drop]

theorem contexts_balanced_decline :
    (run frail counted ({}, 3) decline).1.dropped = true ∧
    (run frail counted ({}, 3) decline).1.pending = [] ∧
    ended ((trace frail counted ({}, 3) decline).flatMap Transition.effects) = [1, 2] := by
  obtain ⟨live, pending, destroyed⟩ := (contexts_balanced frail counted 3 decline).dropped rfl
  exact ⟨rfl, pending, destroyed⟩

end Sandbox.Client

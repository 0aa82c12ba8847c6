import Sandbox.Proofs.Client.Table

namespace Sandbox.Client

def Effect.creation? : Effect → Option Nat
  | .created generation _ => some generation
  | _ => none

def Transition.creations (t : Transition) : List Nat := t.effects.filterMap Effect.creation?

def creations (past : List Transition) : List Nat := past.flatMap Transition.creations

@[simp] theorem creations_append (past more : List Transition) :
    creations (past ++ more) = creations past ++ creations more :=
  List.flatMap_append

@[simp] theorem creations_singleton (t : Transition) : creations [t] = t.creations :=
  List.flatMap_singleton _ _

def State.current? (s : State) : Option Nat := s.live.map Live.generation

theorem cleared_live (s : State) : s.cleared.live = none := by
  obtain ⟨calls, eq⟩ := s.cleared_eq
  rw [eq]

theorem cleared_generation (s : State) : s.cleared.generation = s.generation := by
  obtain ⟨calls, eq⟩ := s.cleared_eq
  rw [eq]

theorem teardown_creations (s : State) : s.teardown.filterMap Effect.creation? = [] := by
  rw [State.teardown]
  cases s.live <;> rfl

inductive LiveChange (s s' : State) : Prop
  | kept (current : s'.current? = s.current?)
  | torn (live : s'.live = none) (pending : s'.pending = [])
  | made (absent : s.live = none) (current : s'.current? = some s'.generation)
  | missed (absent : s.live = none) (live : s'.live = none) (pending : s'.pending = s.pending)

theorem Provision.live {s provided : State} {effects : List Effect}
    (provision : Provision s effects provided) :
    provided.current? = s.current? ∧ provided.generation = s.generation ∧ effects = [] ∨
    s.live = none ∧ provided.current? = some provided.generation ∧
      provided.generation = s.generation + 1 ∧
      effects.filterMap Effect.creation? = [s.generation + 1] := by
  cases provision with
  | kept held => exact .inl ⟨rfl, rfl, rfl⟩
  | fresh absent => exact .inr ⟨absent, rfl, rfl, rfl⟩

theorem Dispatch.live {settings : Settings} {s s' : State} {caller : Nat} {awaited : Awaited}
    {kind : Request.Kind} {budget : Duration} {effects : List Effect}
    (dispatch : Dispatch settings s caller awaited kind budget effects s') :
    s'.generation = s.generation ∧ effects.filterMap Effect.creation? = [] ∧
      (s'.live = s.live ∨ s'.live = none ∧ s'.pending = []) := by
  cases dispatch with
  | registered held => exact ⟨rfl, rfl, .inl rfl⟩
  | unposted held cause => exact ⟨cleared_generation _, rfl, .inr ⟨cleared_live _, cleared_pending _⟩⟩

section
variable {settings : Settings} {s s' : State} {action : Action} {effects : List Effect}

theorem Change.live (change : Change settings s action effects s') : LiveChange s s' := by
  cases change with
  | reset | crashed current | failed current found handshake =>
    exact .torn (cleared_live _) (cleared_pending _)
  | dropped => exact .torn (cleared_live _) (cleared_pending _)
  | overran found expired held run => exact .torn (cleared_live _) (cleared_pending _)
  | @answered generation response record current found survives =>
    refine .kept ?_
    rw [State.settle_eq]
    simp [State.current?, Function.comp_def]
  | sent found ready dispatch =>
    obtain ⟨generation, quiet, same | ⟨live, pending⟩⟩ := dispatch.live
    · exact .kept (congrArg (Option.map Live.generation) same)
    · exact .torn live pending
  | uncreated absent cause => exact .missed absent absent rfl
  | unwarmed absent cause => exact .missed absent absent rfl
  | pinged provision unready dispatch =>
    obtain ⟨generation, quiet, same | ⟨live, pending⟩⟩ := dispatch.live
    · rcases provision.live with ⟨current, -, -⟩ | ⟨absent, current, -, -⟩
      · exact .kept ((congrArg (Option.map Live.generation) same).trans current)
      · refine .made absent ?_
        rw [generation, ← current, State.current?, State.current?, same]
    · exact .torn live pending
  | _ => exact .kept rfl

theorem Change.creations (change : Change settings s action effects s') :
    effects.filterMap Effect.creation? = [] ∧ s'.generation = s.generation ∨
    effects.filterMap Effect.creation? = [s.generation + 1] ∧
      s'.generation = s.generation + 1 := by
  cases change with
  | reset | crashed current => exact .inl ⟨teardown_creations s, cleared_generation s⟩
  | dropped => exact .inl ⟨teardown_creations s, cleared_generation s⟩
  | overran found expired held run => exact .inl ⟨teardown_creations s, cleared_generation _⟩
  | failed current found handshake =>
    refine .inl ⟨teardown_creations s, ?_⟩
    rw [cleared_generation, State.settle_eq]
    rfl
  | answered current found survives =>
    refine .inl ⟨rfl, ?_⟩
    rw [State.settle_eq]
    rfl
  | sent found ready dispatch => exact .inl ⟨dispatch.live.2.1, dispatch.live.1⟩
  | uncreated absent cause => exact .inr ⟨rfl, rfl⟩
  | unwarmed absent cause => exact .inr ⟨rfl, rfl⟩
  | pinged provision unready dispatch =>
    obtain ⟨generation, quiet, -⟩ := dispatch.live
    rw [List.filterMap_append, quiet, List.append_nil, generation]
    rcases provision.live with ⟨-, same, rfl⟩ | ⟨-, -, next, made⟩
    · exact .inl ⟨rfl, same⟩
    · exact .inr ⟨made, next⟩
  | _ => exact .inl ⟨rfl, rfl⟩

end

def DispatchedOn (past : List Transition) (record : Record) (generation : Nat) : Prop :=
  ∃ t ∈ past, t.Dispatches record generation

theorem DispatchedOn.mono {past : List Transition} {record : Record} {generation : Nat}
    (dispatched : DispatchedOn past record generation) (more : List Transition) :
    DispatchedOn (past ++ more) record generation := by
  obtain ⟨t, member, dispatches⟩ := dispatched
  exact ⟨t, List.mem_append_left _ member, dispatches⟩

structure Numbered (past : List Transition) (s : State) : Prop where
  created : creations past = List.range' 1 s.generation
  bounded : ∀ generation, s.current? = some generation → generation ≤ s.generation
  idle : s.live = none → s.pending = []
  dispatched : ∀ record ∈ s.pending, ∃ generation, s.current? = some generation ∧
    DispatchedOn past record generation

theorem Course.numbered {settings : Settings} {past : List Transition} {s : State}
    (course : Course settings past s) : Numbered past s := by
  induction course with
  | start => exact ⟨rfl, by simp [State.current?], fun _ => rfl, by simp⟩
  | @extend past s s' action effects earlier change ih =>
    have grows : s.generation ≤ s'.generation := by
      rcases change.creations with ⟨-, same⟩ | ⟨-, next⟩ <;> omega
    have added : ∀ record ∈ s'.pending, record ∈ s.pending ∨
        ∃ generation, s'.current? = some generation ∧
          DispatchedOn (past ++ [⟨action, s, effects, s'⟩]) record generation := by
      intro record held
      cases change.table with
      | reduced shorter issued => exact .inl (shorter.mem held)
      | @added new generation dispatches id issued =>
        rw [show s'.pending = new :: s.pending from dispatches.pending] at held
        rcases List.mem_cons.mp held with rfl | old
        · exact .inr ⟨generation, dispatches.current, _,
            List.mem_append_right _ (List.mem_singleton_self _), dispatches⟩
        · exact .inl old
    refine ⟨?_, ?_, ?_, ?_⟩
    · rw [creations_append, creations_singleton, ih.created, Transition.creations]
      rcases change.creations with ⟨quiet, same⟩ | ⟨made, next⟩
      · rw [quiet, same, List.append_nil]
      · rw [made, next, List.range'_1_concat, Nat.add_comm 1]
    · intro generation current
      cases change.live with
      | kept same => exact Nat.le_trans (ih.bounded generation (same ▸ current)) grows
      | torn live pending => simp [State.current?, live] at current
      | made absent current' =>
        obtain rfl := Option.some.inj (current'.symm.trans current)
        exact Nat.le_refl _
      | missed absent live pending => simp [State.current?, live] at current
    · intro absent
      have gone : s'.current? = none := congrArg _ absent
      cases change.live with
      | kept same =>
        have empty := ih.idle (Option.map_eq_none_iff.mp (same.symm.trans gone))
        cases change.table with
        | reduced shorter issued => exact List.sublist_nil.mp (empty ▸ shorter)
        | added dispatches id issued => exact nomatch gone.symm.trans dispatches.current
      | torn live pending => exact pending
      | made absent' current => exact nomatch gone.symm.trans current
      | missed absent' live pending => exact pending.trans (ih.idle absent')
    · intro record held
      rcases added record held with old | new
      · obtain ⟨generation, current, dispatched⟩ := ih.dispatched record old
        cases change.live with
        | kept same => exact ⟨generation, same.trans current, dispatched.mono _⟩
        | torn live pending => simp [pending] at held
        | made absent current' => simp [ih.idle absent] at old
        | missed absent live pending => simp [ih.idle absent] at old
      · exact new

end Sandbox.Client

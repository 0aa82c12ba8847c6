import Sandbox.Proofs.Client.Lifecycle

namespace Sandbox.Client

/-- The live context says that it is ready, in answer to a handshake of its own in the table. -/
structure Transition.Readies (earlier : List Transition) (t : Transition) (generation : Nat) :
    Prop where
  current : t.before.current? = some generation
  answered : ∃ record ∈ t.before.pending, record.awaited = .handshake ∧
    DispatchedOn earlier record generation ∧
    t.action = .event generation (.response ⟨record.id, .ready⟩)

def ReadiedOn (past : List Transition) (generation : Nat) : Prop :=
  ∃ earlier t later, past = earlier ++ t :: later ∧ t.Readies earlier generation

section
variable {settings : Settings} {s s' : State} {action : Action} {effects : List Effect}

theorem Change.ready (change : Change settings s action effects s') {live : Live}
    (after : s'.live = some live) (ready : live.ready = true) :
    s.live = some live ∨ s.current? = some live.generation ∧
      ∃ record ∈ s.pending, record.awaited = .handshake ∧
        action = .event live.generation (.response ⟨record.id, .ready⟩) := by
  have gone : ∀ s : State, s.cleared.live ≠ some live := by
    intro s
    simp [cleared_live]
  have dispatched : ∀ {provided : State} {caller : Nat} {awaited : Awaited} {kind : Request.Kind}
      {budget : Duration} {posted : List Effect},
      Dispatch settings provided caller awaited kind budget posted s' →
      provided.live = some live := by
    intro provided caller awaited kind budget posted dispatch
    cases dispatch with
    | registered held => exact after
    | unposted held cause => exact absurd after (gone _)
  cases change with
  | reset | crashed current => exact absurd after (gone s)
  | dropped => exact absurd after (gone s)
  | failed current found handshake => exact absurd after (gone _)
  | overran found expired held run => exact absurd after (gone _)
  | @answered generation response record current found survives =>
    rw [State.settle_eq] at after
    obtain ⟨before, held, rfl⟩ := Option.map_eq_some_iff.mp after
    by_cases told : record.awaited = .handshake ∧ response.kind = .ready
    · obtain ⟨pending, id⟩ := mem_of_record? found
      rw [held] at current
      obtain rfl := Option.some.inj current
      rw [Live.told_generation]
      obtain ⟨_, kind⟩ := response
      obtain rfl : kind = .ready := told.2
      exact .inr ⟨congrArg _ held, record, pending, told.1, by rw [id]⟩
    · rw [Live.told_of_ne told]
      exact .inl held
  | sent found ready' dispatch => exact .inl (dispatched dispatch)
  | pinged provision unready dispatch =>
    have provided := dispatched dispatch
    rw [State.isReady, provided] at unready
    cases ready.symm.trans unready
  | _ => exact .inl after

theorem Change.stays_ready (change : Change settings s action effects s') {live : Live}
    (held : s.live = some live) (ready : live.ready = true)
    (current : s'.current? = some live.generation) : s'.live = some live := by
  have gone : ∀ s : State, s.cleared.current? ≠ some live.generation := by
    intro s
    simp [current?_cleared]
  have dispatched : ∀ {provided : State} {caller : Nat} {awaited : Awaited} {kind : Request.Kind}
      {budget : Duration} {posted : List Effect},
      Dispatch settings provided caller awaited kind budget posted s' →
      s'.live = provided.live := by
    intro provided caller awaited kind budget posted dispatch
    cases dispatch with
    | registered _ => rfl
    | unposted _ cause => exact absurd current (gone _)
  cases change with
  | reset | crashed _ => exact absurd current (gone s)
  | dropped => exact absurd current (gone s)
  | failed _ found handshake => exact absurd current (gone _)
  | overran found expired _ run => exact absurd current (gone _)
  | @answered generation response record _ found survives =>
    rw [State.settle_eq]
    change s.live.map _ = _
    rw [held]
    by_cases told : record.awaited = .handshake ∧ response.kind = .ready
    · rw [told.1, told.2]
      exact congrArg (fun ready => some (Live.mk live.generation ready)) ready.symm
    · rw [Live.told_of_ne told]
      rfl
  | sent found _ dispatch => exact (dispatched dispatch).trans held
  | uncreated absent cause => cases held.symm.trans absent
  | unwarmed absent cause => cases held.symm.trans absent
  | pinged provision unready dispatch =>
    cases provision with
    | kept _ =>
      have still_ready : s.isReady = true := by rw [State.isReady, held]; exact ready
      cases still_ready.symm.trans unready
    | fresh absent => cases held.symm.trans absent
  | _ => exact held

theorem Change.current_before (change : Change settings s action effects s') {generation : Nat}
    (known : generation ≤ s.generation) (current : s'.current? = some generation) :
    s.current? = some generation := by
  have member : generation ∈ s.current?.toList ++ opened effects := by
    rw [change.custody.balance, current]
    exact List.mem_append_right _ (List.mem_singleton_self _)
  rcases List.mem_append.mp member with before | new
  · exact Option.mem_toList.mp before
  · have created := (opened_sublist effects).mem new
    rcases change.creations with ⟨quiet, -⟩ | ⟨made, -⟩
    · simp [quiet] at created
    · rw [made] at created
      have := List.mem_singleton.mp created
      omega

end

section
variable {settings : Settings} {past : List Transition} {s : State}

theorem ReadiedOn.said {generation : Nat} (readied : ReadiedOn past generation) :
    ∃ t ∈ past, ∃ id, t.action = .event generation (.response ⟨id, .ready⟩) := by
  obtain ⟨earlier, t, later, rfl, ⟨-, record, -, -, -, said⟩⟩ := readied
  exact ⟨t, by simp, record.id, said⟩

theorem ReadiedOn.mono {generation : Nat} (readied : ReadiedOn past generation)
    (more : List Transition) : ReadiedOn (past ++ more) generation := by
  obtain ⟨earlier, t, later, rfl, readies⟩ := readied
  exact ⟨earlier, t, later ++ more, by simp, readies⟩

theorem Course.readied (course : Course settings past s) {live : Live} (held : s.live = some live)
    (ready : live.ready = true) : ReadiedOn past live.generation := by
  induction course with
  | start => cases held
  | @extend past s s' action effects earlier change ih =>
    rcases change.ready held ready with before | ⟨current, record, pending, handshake, said⟩
    · exact (ih before).mono _
    · obtain ⟨generation, current', dispatched⟩ := earlier.numbered.dispatched record pending
      obtain rfl := Option.some.inj (current.symm.trans current')
      exact ⟨past, _, [], rfl, current, record, pending, handshake, dispatched, said⟩

theorem Course.still_ready {earlier later : List Transition} {t : Transition}
    (course : Course settings (earlier ++ t :: later) s) {live : Live}
    (held : t.before.live = some live) (ready : live.ready = true) :
    live.generation ≤ s.generation ∧
      (s.current? = some live.generation → s.live = some live) := by
  generalize eq : earlier ++ t :: later = past at course
  induction course generalizing later with
  | start => simp at eq
  | @extend past s s' action effects before change ih =>
    have grows : s.generation ≤ s'.generation := by
      rcases change.creations with ⟨-, same⟩ | ⟨-, next⟩ <;> omega
    have upto : live.generation ≤ s.generation ∧
        (s.current? = some live.generation → s.live = some live) := by
      rcases List.eq_nil_or_concat later with rfl | ⟨rest, last, rfl⟩
      · obtain ⟨rfl, same⟩ := List.append_inj' eq rfl
        obtain rfl := List.singleton_inj.mp same
        exact ⟨before.numbered.bounded _ (congrArg _ held), fun _ => held⟩
      · rw [List.concat_eq_append, ← List.cons_append, ← List.append_assoc] at eq
        exact ih (List.append_inj' eq rfl).1
    refine ⟨Nat.le_trans upto.1 grows, fun current => ?_⟩
    have still := upto.2 (change.current_before upto.1 current)
    exact change.stays_ready still ready current

end

end Sandbox.Client

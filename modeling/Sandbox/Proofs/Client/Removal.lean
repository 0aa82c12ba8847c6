import Sandbox.Proofs.Client.Actor

namespace Sandbox.Client

inductive Waited (s : State) (caller : Nat) (ask : Ask) (wait : Wait) : Prop
  | fresh (unreplied : wait.reply = none) (unexpired : wait.expired = false)
  | before {wait' : Wait} (found : s.calls[caller]? = some ⟨ask, .waiting wait'⟩)
    (same : wait.record caller = wait'.record caller) (budget : wait.budget = wait'.budget)
    (deadline : wait.deadline = wait'.deadline)
    (expired : wait.expired = true → wait'.expired = true ∨ wait.deadline ≤ s.now)

section
variable {settings : Settings} {s s' : State} {action : Action} {effects : List Effect}

theorem Turn.waited {caller : Nat} {ask : Ask} {wait : Wait}
    (turn : Turn s caller ask effects (.waiting wait)) : Waited s caller ask wait := by
  generalize eq : Phase.waiting wait = phase at turn
  cases turn with
  | dispatched admits unreplied unexpired =>
    cases eq
    exact .fresh unreplied unexpired
  | noticed found due =>
    cases eq
    exact .before found rfl rfl rfl fun _ => .inr due
  | entered | replied | timed => exact absurd eq.symm resolution_ne_waiting
  | _ => cases eq

theorem Change.waited (change : Change settings s action effects s') {caller : Nat} {ask : Ask}
    {wait : Wait} (after : s'.calls[caller]? = some ⟨ask, .waiting wait⟩) :
    Waited s caller ask wait := by
  have kept : s'.calls[caller]? = s.calls[caller]? → Waited s caller ask wait :=
    fun same => .before (same.symm.trans after) rfl rfl rfl .inl
  by_cases acts : action.actor? s = some caller
  · rcases change.turn acts with rfl | ⟨ask', phase, found, turn⟩
    · exact kept rfl
    · cases found.symm.trans after
      exact turn.waited
  · rcases change.untouched acts with same | ⟨record, held, left, own, reply, told⟩
    · exact kept same
    · rw [told] at after
      obtain ⟨⟨ask', phase⟩, found, eq⟩ := Option.map_eq_some_iff.mp after
      cases phase with
      | waiting wait' =>
        cases eq
        exact .before found rfl rfl rfl .inl
      | _ => simp [Call.given, Phase.given] at eq

theorem Change.now (change : Change settings s action effects s') : s.now ≤ s'.now := by
  have cleared : ∀ s : State, s.cleared.now = s.now := by
    intro s
    obtain ⟨calls, eq⟩ := s.cleared_eq
    rw [eq]
  have same : ∀ s' : State, s'.now = s.now → s.now ≤ s'.now :=
    fun s' eq => eq ▸ Nat.le_refl _
  cases change with
  | advanced span => exact Nat.le_add_right _ _
  | reset | crashed current => exact same _ (cleared s)
  | dropped => exact same _ (cleared s)
  | answered current found survives => exact same _ (by rw [State.settle_eq]; rfl)
  | failed current found handshake => exact same _ (by rw [cleared, State.settle_eq]; rfl)
  | overran found expired held run => exact same _ (cleared _)
  | sent found ready dispatch =>
    cases dispatch with
    | registered held => exact same _ rfl
    | unposted held cause => exact same _ (cleared _)
  | pinged provision unready dispatch =>
    cases provision <;> cases dispatch with
    | registered held => exact same _ rfl
    | unposted held cause => exact same _ (cleared _)
  | _ => exact same _ rfl

theorem Change.ended (change : Change settings s action effects s') {caller : Nat} {call : Call}
    (found : s.calls[caller]? = some call) (ended : call.phase.isActive = false) :
    s'.calls[caller]? = some call := by
  by_cases acts : action.actor? s = some caller
  · rcases change.turn acts with rfl | ⟨ask', phase, after, turn⟩
    · exact found
    · exact absurd turn (Turn.not_ended found ended)
  · rcases change.untouched acts with same | ⟨record, held, left, own, reply, told⟩
    · exact same.trans found
    · rw [told, found]
      rcases call with ⟨ask, _ | wait | outcome | _⟩
      · rfl
      · cases ended
      · rfl
      · rfl

theorem Change.removes (change : Change settings s action effects s') {record : Record}
    (held : record ∈ s.pending) (left : record ∉ s'.pending) :
    (s'.live = none ∧ ∀ generation, s.current? = some generation →
      .destroyed generation ∈ effects) ∨
    (∃ generation response, action = .event generation (.response response) ∧
      response.id = record.id) ∨
    ∃ caller ask wait, action = .proceed caller ∧
      s.calls[caller]? = some ⟨ask, .waiting wait⟩ ∧ record.id = wait.id := by
  have torn : ∀ generation, s.current? = some generation → .destroyed generation ∈ s.teardown :=
    fun _ => State.destroyed_mem_teardown
  have dispatched : ∀ {provided : State} {caller : Nat} {awaited : Awaited} {kind : Request.Kind}
      {budget : Duration} {posted : List Effect},
      Dispatch settings provided caller awaited kind budget posted s' →
      provided.pending = s.pending → (s.live = none ∨ provided.current? = s.current?) →
      s'.live = none ∧ ∀ generation, s.current? = some generation →
        .destroyed generation ∈ posted := by
    intro provided caller awaited kind budget posted dispatch pending live
    cases dispatch with
    | registered _ =>
      exact absurd (List.mem_cons_of_mem _ (pending ▸ held)) left
    | @unposted live' held' cause =>
      refine ⟨cleared_live _, ?_⟩
      intro generation current
      rcases live with absent | same
      · simp [State.current?, absent] at current
      · rw [← same, State.current?, held'] at current
        cases current
        simp
  cases change with
  | reset | crashed current => exact .inl ⟨cleared_live s, torn⟩
  | dropped => exact .inl ⟨cleared_live s, torn⟩
  | failed current found handshake => exact .inl ⟨cleared_live _, torn⟩
  | overran found expired held' run => exact .inl ⟨cleared_live _, torn⟩
  | @answered generation response other current found survives =>
    refine .inr (.inl ⟨generation, response, rfl, ?_⟩)
    rw [settle_pending] at left
    by_contra different
    exact left (List.mem_filter.mpr ⟨held, by simpa using Ne.symm different⟩)
  | @lapsed caller ask wait other found expired held' handshake =>
    refine .inr (.inr ⟨caller, ask, wait, rfl, found, ?_⟩)
    by_contra different
    exact left (List.mem_filter.mpr ⟨held, by simpa using different⟩)
  | sent found ready dispatch => exact .inl (dispatched dispatch rfl (.inr rfl))
  | @pinged ask _ _ provided _ provision unready dispatch =>
    obtain ⟨pending, issued, calls⟩ := provision.table
    have live : s.live = none ∨ provided.current? = s.current? := by
      rcases provision.live with ⟨current, -, -⟩ | ⟨absent, -⟩
      · exact .inr current
      · exact .inl absent
    obtain ⟨gone, destroyed⟩ := dispatched dispatch pending live
    exact .inl ⟨gone, fun generation current => List.mem_append_right _ (destroyed _ current)⟩
  | _ => exact absurd held left

end

/-- Why a removal is what it is called: the answer came from the context that the request went to,
the timer is that of the waiting call and its time is up, or the context was destroyed. -/
inductive Explained (past : List Transition) (t : Transition) : Removal → Prop
  | response {record : Record} {kind : Response.Kind} {generation : Nat}
    (action : t.action = .event generation (.response ⟨record.id, kind⟩))
    (current : t.before.current? = some generation) (own : OnlyOn past record generation) :
    Explained past t ⟨record, .response kind⟩
  | timer {record : Record} {ask : Ask} {wait : Wait} (action : t.action = .proceed record.caller)
    (found : t.before.calls[record.caller]? = some ⟨ask, .waiting wait⟩)
    (own : wait.record record.caller = record) (expired : wait.expired = true)
    (due : wait.deadline ≤ t.before.now) : Explained past t ⟨record, .timer wait.budget⟩
  | reset {record : Record} {generation : Nat} (current : t.before.current? = some generation)
    (destroyed : .destroyed generation ∈ t.effects) (retired : t.after.live = none) :
    Explained past t ⟨record, .reset⟩

section
variable {settings : Settings} {past : List Transition} {s : State}

theorem Course.due (course : Course settings past s) {caller : Nat} {ask : Ask} {wait : Wait}
    (found : s.calls[caller]? = some ⟨ask, .waiting wait⟩) (expired : wait.expired = true) :
    wait.deadline ≤ s.now := by
  induction course generalizing wait with
  | start => simp at found
  | extend earlier change ih =>
    cases change.waited found with
    | fresh unreplied unexpired => exact nomatch expired.symm.trans unexpired
    | before found' same budget deadline expires =>
      have later := change.now
      rcases expires expired with before | now
      · exact Nat.le_trans (deadline ▸ ih found' before) later
      · exact Nat.le_trans now later

theorem Course.explained {action : Action} {effects : List Effect} {s' : State}
    (course : Course settings past s) (distinct : Function.Injective settings.ids)
    (change : Change settings s action effects s') {removal : Removal}
    (removed : removal ∈ (Transition.mk action s effects s').removals) :
    Explained past ⟨action, s, effects, s'⟩ removal := by
  obtain ⟨record, remover⟩ := removal
  obtain ⟨held, left, same⟩ := (Transition.mem_removals _).mp removed
  dsimp only at held left same
  subst same
  obtain ⟨⟨ask, phase⟩, found, awaits⟩ := (course.linked distinct).awaited record held
  have reset : (∀ generation response, action = .event generation (.response response) →
      response.id ≠ record.id) →
      (action = .proceed record.caller → phase = .cancelled) →
      Explained past ⟨action, s, effects, s'⟩ ⟨record, .reset⟩ := by
    intro unanswered untimed
    rcases change.removes held left with ⟨retired, destroyed⟩ | ⟨generation, response, acts, id⟩ |
      ⟨caller, ask', wait, acts, found', id⟩
    · obtain ⟨generation, current, -⟩ := course.numbered.dispatched record held
      exact .reset current (destroyed generation current) retired
    · exact absurd id (unanswered generation response acts)
    · have orderly := course.orderly distinct
      obtain rfl := orderly.eq_of_id (orderly.pending_registered held)
        ((course.linked distinct).waits caller ask' wait found') id
      cases found'.symm.trans found
      cases untimed acts
  cases action with
  | event generation event =>
    cases event with
    | response response =>
      by_cases same : response.id = record.id
      · rcases change.of_event with ⟨rfl, -⟩ | ⟨current, -⟩
        · exact absurd held left
        · simp only [Transition.remover, if_pos same]
          exact .response (same ▸ rfl) current (course.pending_onlyOn distinct held current)
      · simp only [Transition.remover, if_neg same]
        refine reset ?_ (by simp)
        rintro _ _ ⟨⟩
        exact same
    | crashed reason => exact reset (by simp) (by simp)
  | proceed caller =>
    simp only [Transition.remover, State.phase?, found, Option.map_some]
    cases awaits with
    | @waiting wait own unreplied =>
      by_cases acts : caller = record.caller
      · subst acts
        simp only [if_true]
        cases change.of_wait found with
        | waits pending live silent after same => exact absurd (pending ▸ held) left
        | replied pending live silent replied after => exact absurd (pending ▸ held) left
        | timed held' expired gone torn after =>
          exact .timer rfl found own expired (course.due found expired)
      · simp only [if_neg acts]
        exact reset (by simp) fun eq => absurd (Action.proceed.inj eq) acts
    | cancelled => exact reset (by simp) fun _ => rfl
  | _ => exact reset (by simp) (by simp)

theorem Course.timed (course : Course settings past s) (distinct : Function.Injective settings.ids)
    {record : Record} {budget : Duration} (removed : ⟨record, .timer budget⟩ ∈ removals past) :
    ∃ ask result, s.calls[record.caller]? = some ⟨ask, .finished result⟩ := by
  induction course with
  | start => simp [removals] at removed
  | @extend past s s' action effects earlier change ih =>
    rw [removals_append, removals_singleton] at removed
    rcases List.mem_append.mp removed with before | now
    · obtain ⟨ask, result, found⟩ := ih before
      exact ⟨ask, result, change.ended found rfl⟩
    · obtain ⟨held, left, -⟩ := (Transition.mem_removals _).mp now
      cases earlier.explained distinct change now with
      | timer action found own expired due =>
        dsimp only at action found
        subst action
        cases change.of_wait found with
        | waits pending live silent after same => exact absurd (pending ▸ held) left
        | replied pending live silent replied after => exact absurd (pending ▸ held) left
        | timed held' expired gone torn after => exact ⟨_, _, after⟩

end

end Sandbox.Client

import Sandbox.Proofs.Client.Lifecycle
import Sandbox.Proofs.Client.Shift
import Sandbox.Proofs.Client.Snippet
import Sandbox.Proofs.Client.Stray

namespace Sandbox.Client

/-! ## What a reset leaves -/

/-- A run whose wait for readiness is over, and be it that its reply is there and not yet taken, and
whose snippet is not sent. It will send it to whatever context is ready then. -/
inductive Call.Passing : Call → Prop
  | admitted {code : String} {budgets : Option Budgets} : Passing ⟨.run code budgets, .admitted⟩
  | answered {code : String} {budgets : Option Budgets} {wait : Wait} {reply : Reply}
    (handshake : wait.awaited = .handshake) (replied : wait.reply = some (.ok reply)) :
    Passing ⟨.run code budgets, .waiting wait⟩

/-- The client is reset, or a context is destroyed: by the end of a budget, a crash, a post that
fails, or a handshake that fails. -/
inductive Transition.Resets (t : Transition) : Prop
  | asked (reset : t.action = .reset)
  | destroyed {generation : Nat} (stays : t.action ≠ .drop) (gone : .destroyed generation ∈ t.effects)

theorem Call.Passing.of_given {call : Call} {cause : Failure}
    (passing : (call.given (.error cause)).Passing) : call.Passing := by
  rcases call with ⟨ask, _ | wait | outcome | _⟩
  · exact passing
  · cases passing with
    | answered handshake replied => cases replied
  · exact passing
  · exact passing

def State.Passes (s : State) (caller : Nat) : Prop :=
  ∃ call, s.calls[caller]? = some call ∧ call.Passing

section
variable {settings : Settings} {s s' : State} {i : Nat}

theorem State.Passes.of_told {cause : Failure} (passes : s'.Passes i)
    (told : s'.calls[i]? = s.calls[i]? ∨
      s'.calls[i]? = s.calls[i]?.map (Call.given (.error cause))) : s.Passes i := by
  obtain ⟨call, found, passing⟩ := passes
  rcases told with same | told
  · exact ⟨call, same.symm.trans found, passing⟩
  · obtain ⟨before, held, rfl⟩ := Option.map_eq_some_iff.mp (told.symm.trans found)
    exact ⟨before, held, passing.of_given⟩

theorem State.Passes.of_cleared (passes : s.cleared.Passes i) : s.Passes i := by
  apply passes.of_told
  rw [s.calls_cleared]
  split
  · exact .inr rfl
  · exact .inl rfl

theorem State.Passes.of_settle {caller : Nat} {cause : Failure}
    (passes : (s.settle caller (.error cause)).Passes i) : s.Passes i := by
  apply passes.of_told
  rw [s.calls_settle]
  split
  · exact .inr rfl
  · exact .inl rfl

theorem State.Passes.of_finish {caller : Nat} {outcome : Except Failure (Option RunOutput)}
    (passes : (s.finish caller outcome).Passes i) : i ≠ caller ∧ s.Passes i := by
  obtain ⟨call, found, passing⟩ := passes
  rw [State.finish, s.calls_setPhase] at found
  split at found
  · obtain ⟨⟨ask, phase⟩, -, rfl⟩ := Option.map_eq_some_iff.mp found
    cases passing
  · rename_i other
    exact ⟨other, call, found, passing⟩

theorem State.Passes.of_opened {ask : Ask} (other : i ≠ s.calls.length)
    (passes : (s.opened ask).Passes i) : s.Passes i := by
  rwa [Passes, calls_opened_of_ne other] at passes

structure Cut (s : State) (action : Action) (s' : State) : Prop where
  live : s'.live = none
  pending : s'.pending = []
  passes : ∀ caller, s'.Passes caller → action.actor? s ≠ some caller ∧ s.Passes caller

variable {action : Action} {effects : List Effect}

theorem Cut.of_cleared (aside : action.actor? s = none)
    (passes : ∀ caller, s'.Passes caller → s.Passes caller) : Cut s action s'.cleared := by
  refine ⟨cleared_live s', cleared_pending s', fun caller passing => ⟨?_, ?_⟩⟩
  · simp [aside]
  · exact passes caller passing.of_cleared

theorem Cut.of_finish {caller : Nat} {outcome : Except Failure (Option RunOutput)}
    (acts : action.actor? s = some caller) (live : s'.live = none) (pending : s'.pending = [])
    (passes : ∀ other ≠ caller, s'.Passes other → s.Passes other) :
    Cut s action (s'.finish caller outcome) := by
  refine ⟨live, pending, fun i passing => ?_⟩
  obtain ⟨other, passing⟩ := passing.of_finish
  refine ⟨?_, passes i other passing⟩
  rw [acts]
  exact fun same => other (Option.some.inj same).symm

theorem Dispatch.cut {provided : State} {caller : Nat} {awaited : Awaited} {kind : Request.Kind}
    {budget : Duration} {generation : Nat}
    (dispatch : Dispatch settings provided caller awaited kind budget effects s')
    (gone : .destroyed generation ∈ effects) (acts : action.actor? s = some caller)
    (passes : ∀ other ≠ caller, provided.Passes other → s.Passes other) : Cut s action s' := by
  cases dispatch with
  | registered held => simp at gone
  | unposted held cause =>
    refine .of_finish acts (cleared_live _) (cleared_pending _) ?_
    exact fun other apart passing => passes other apart passing.of_cleared

theorem Change.cut (change : Change settings s action effects s')
    (idle : s.live = none → s.pending = []) {generation : Nat} (stays : action ≠ .drop)
    (gone : .destroyed generation ∈ effects) : Cut s action s' := by
  cases change with
  | reset | crashed current => exact .of_cleared rfl fun _ => id
  | dropped => exact absurd rfl stays
  | failed current found handshake =>
    exact .of_cleared rfl fun _ passing => State.Passes.of_settle (s := s.removeRecord _) passing
  | sent found ready dispatch => exact dispatch.cut gone rfl fun _ _ => id
  | overran found expired held run =>
    refine .of_finish rfl (cleared_live _) (cleared_pending _) ?_
    exact fun _ _ passing => State.Passes.of_cleared (s := s.removeRecord _) passing
  | unwarmed absent cause =>
    refine .of_finish rfl absent (idle absent) ?_
    exact fun _ other passing => State.Passes.of_opened other passing
  | @pinged ask effects effects' provided s' provision unready dispatch =>
    have quiet : .destroyed generation ∉ effects := by
      cases provision <;> simp
    refine dispatch.cut ((List.mem_append.mp gone).resolve_left quiet) rfl ?_
    intro i other passing
    rw [State.Passes, provision.table.2.2] at passing
    exact State.Passes.of_opened other passing
  | _ => simp at gone

end

/-! ## Old calls -/

inductive Inert (settings : Settings) (issued : Nat) : Call → Prop
  | finished {ask : Ask} {outcome : Except Failure (Option RunOutput)} :
    Inert settings issued ⟨ask, .finished outcome⟩
  | cancelled {ask : Ask} : Inert settings issued ⟨ask, .cancelled⟩
  | through {budget : Duration} : Inert settings issued ⟨.ready budget, .admitted⟩
  | told {ask : Ask} {wait : Wait} {reply : Except Failure Reply} {n : Nat}
    (replied : wait.reply = some reply) (ends : resolution ask wait.awaited reply ≠ .admitted)
    (earlier : n < issued) (own : wait.id = settings.ids n) :
    Inert settings issued ⟨ask, .waiting wait⟩

def AllInert (settings : Settings) (issued : Nat) (old : List Call) : Prop :=
  ∀ (i : Nat) (call : Call), old[i]? = some call → Inert settings issued call

theorem resolution_ne_admitted {ask : Ask} {wait : Wait} {reply : Except Failure Reply}
    (unpassed : ¬Call.Passing ⟨ask, .waiting wait⟩) (replied : wait.reply = some reply) :
    resolution ask wait.awaited reply ≠ .admitted := by
  cases awaited : wait.awaited with
  | run => exact resolution_run_ne_admitted
  | handshake =>
    intro leads
    rcases reply with cause | reply
    · cases leads
    · cases ask with
      | ready budget => cases leads
      | run code budgets => exact unpassed (.answered awaited replied)

theorem Course.inert {settings : Settings} {past : List Transition} {s : State}
    (course : Course settings past s) (distinct : Function.Injective settings.ids)
    (pending : s.pending = [])
    (unpassed : ∀ caller, ¬s.Passes caller) : AllInert settings s.issued s.calls := by
  rintro i ⟨ask, _ | wait | outcome | _⟩ found
  · cases ask with
    | ready budget => exact .through
    | run code budgets => exact absurd ⟨_, found, .admitted⟩ (unpassed i)
  · have linked := course.linked distinct
    have absent : s.record? wait.id = none := by
      simp [State.record?, pending]
    obtain ⟨reply, replied⟩ := linked.reply_of_gone found absent
    obtain ⟨n, earlier, own⟩ :=
      (course.orderly distinct).issued _ (linked.waits i ask wait found)
    have waits : ¬Call.Passing ⟨ask, .waiting wait⟩ := fun passing => unpassed i ⟨_, found, passing⟩
    exact .told replied (resolution_ne_admitted waits replied) earlier own
  · exact .finished
  · exact .cancelled

namespace Shift

section
variable (shift : Shift)

def unshifted : Event → Event
  | .response response => .response { response with id := shift.rename.symm response.id }
  | .crashed reason => .crashed reason

theorem event_unshifted (event : Event) : shift.event (shift.unshifted event) = event := by
  cases event <;> simp [unshifted, Shift.event]

/-- What an action is to the new client: nothing, if it belongs to an old call or an old context. -/
def project? : Action → Option Action
  | .proceed caller =>
    if caller < shift.callers then none else some (.proceed (caller - shift.callers))
  | .cancel caller =>
    if caller < shift.callers then none else some (.cancel (caller - shift.callers))
  | .event generation event =>
    if generation ≤ shift.generation then none
    else some (.event (generation - shift.generation) (shift.unshifted event))
  | action => some action

inductive Stale : Action → Prop
  | proceed {caller : Nat} (before : caller < shift.callers) : Stale (.proceed caller)
  | cancel {caller : Nat} (before : caller < shift.callers) : Stale (.cancel caller)
  | event {generation : Nat} {event : Event} (before : generation ≤ shift.generation) :
    Stale (.event generation event)

theorem project?_cases (action : Action) :
    (shift.project? action = none ∧ shift.Stale action) ∨
      ∃ action', shift.project? action = some action' ∧ action = shift.action action' := by
  cases action with
  | proceed caller =>
    by_cases before : caller < shift.callers
    · exact .inl ⟨if_pos before, .proceed before⟩
    · refine .inr ⟨_, if_neg before, ?_⟩
      rw [Shift.action, Nat.add_sub_of_le (Nat.le_of_not_lt before)]
  | cancel caller =>
    by_cases before : caller < shift.callers
    · exact .inl ⟨if_pos before, .cancel before⟩
    · refine .inr ⟨_, if_neg before, ?_⟩
      rw [Shift.action, Nat.add_sub_of_le (Nat.le_of_not_lt before)]
  | event generation event =>
    by_cases before : generation ≤ shift.generation
    · exact .inl ⟨if_pos before, .event before⟩
    · refine .inr ⟨_, if_neg before, ?_⟩
      rw [Shift.action, event_unshifted, Nat.add_sub_of_le (Nat.le_of_not_le before)]
  | _ => exact .inr ⟨_, rfl, rfl⟩

end

inductive Elder (shift : Shift) (settings : Settings) (s : State) : State → Prop
  | beside {old : List Call} (width : old.length = shift.callers)
    (inert : AllInert settings shift.issued old) : Elder shift settings s (shift.state old s)

section
variable {shift : Shift} {settings : Settings} {old : List Call} {s : State}

theorem Elder.setPhase (width : old.length = shift.callers)
    (inert : AllInert settings shift.issued old) {caller : Nat} (before : caller < shift.callers)
    {phase : Phase} (ended : ∀ ask, Inert settings shift.issued ⟨ask, phase⟩) :
    shift.Elder settings s ((shift.state old s).setPhase caller phase) := by
  rw [state_setPhase_old s (width ▸ before)]
  refine .beside ((List.length_modify _ _ _).trans width) ?_
  intro i call found
  rw [List.getElem?_modify] at found
  obtain ⟨earlier, held, rfl⟩ := Option.map_eq_some_iff.mp found
  split
  · exact ended earlier.ask
  · exact inert i earlier held

theorem old_found (width : old.length = shift.callers) (inert : AllInert settings shift.issued old)
    {caller : Nat} (before : caller < shift.callers) :
    ∃ call, (shift.state old s).calls[caller]? = some call ∧ Inert settings shift.issued call := by
  have known : caller < old.length := width ▸ before
  have held : old[caller]? = some old[caller] := List.getElem?_eq_getElem known
  exact ⟨old[caller], (List.getElem?_append_left known).trans held, inert caller _ held⟩

variable {σ : Type} (contexts : Contexts σ)

theorem Elder.proceed {left : State} (elder : shift.Elder settings s left)
    (distinct : Function.Injective settings.ids)
    (fresh : ∀ record ∈ left.pending, ∃ n, shift.issued ≤ n ∧ record.id = settings.ids n)
    {caller : Nat} (before : caller < shift.callers) (w : σ) :
    ∃ left', proceed contexts settings left w caller = (left', w) ∧
      shift.Elder settings s left' := by
  cases elder with
  | @beside old width inert =>
  have still : shift.Elder settings s (shift.state old s) := .beside width inert
  obtain ⟨call, found, calm⟩ := old_found (s := s) width inert before
  cases calm with
  | finished | cancelled => exact ⟨_, by simp only [Client.proceed, found], still⟩
  | through => exact ⟨_, by simp only [Client.proceed, found, dispatchRun], still⟩
  | @told ask wait reply n replied ends earlier own =>
    have gone : (shift.state old s).record? wait.id = none := by
      simp only [State.record?, List.find?_eq_none, decide_eq_true_eq]
      intro record pending same
      obtain ⟨m, later, issued⟩ := fresh record pending
      have := distinct (issued.symm.trans (same.trans own))
      omega
    obtain ⟨result, finished⟩ := (resolution_cases ask wait.awaited reply).resolve_left ends
    refine ⟨(shift.state old s).setPhase caller (.finished result), ?_,
      .setPhase width inert before fun _ => .finished⟩
    rw [← finished, ← takeReply_eq]
    simp [Client.proceed, found, expire, gone, replied]

theorem Elder.cancel {left : State} (elder : shift.Elder settings s left) {caller : Nat}
    (before : caller < shift.callers) : shift.Elder settings s (cancel left caller) := by
  cases elder with
  | @beside old width inert =>
  unfold Client.cancel
  split
  · split
    · exact .setPhase width inert before fun _ => .cancelled
    · exact .beside width inert
  · exact .beside width inert

theorem Elder.step_stale {left : State} (elder : shift.Elder settings s left)
    (distinct : Function.Injective settings.ids) (counted : Counted s)
    (fresh : ∀ record ∈ left.pending, ∃ n, shift.issued ≤ n ∧ record.id = settings.ids n)
    {action : Action} (stale : shift.Stale action) (w : σ) :
    ∃ left', step contexts settings (left, w) action = (left', w) ∧
      shift.Elder settings s left' := by
  cases stale with
  | proceed before => exact elder.proceed contexts distinct fresh before w
  | cancel before => exact ⟨_, rfl, elder.cancel before⟩
  | @event generation event before =>
    refine ⟨left, ?_, elder⟩
    have retired : left.live.map Live.generation ≠ some generation := by
      cases elder with
      | @beside old width inert =>
      intro current
      obtain ⟨live, held, rfl⟩ := Option.map_eq_some_iff.mp current
      obtain ⟨live, young, rfl⟩ := Option.map_eq_some_iff.mp held
      have := counted live young
      simp only [Shift.live] at before
      omega
    simp only [step, onEvent, retired, if_false]

end

end Shift

/-! ## New clients -/

section
variable {settings : Settings} {past : List Transition} {s s' : State}

theorem Dispatch.issued {caller : Nat} {awaited : Awaited} {kind : Request.Kind} {budget : Duration}
    {effects : List Effect} (dispatch : Dispatch settings s caller awaited kind budget effects s') :
    s'.issued = s.issued + 1 := by
  cases dispatch with
  | registered held => rfl
  | unposted held cause => exact cleared_issued _

theorem Change.issued_le {action : Action} {effects : List Effect}
    (change : Change settings s action effects s') : s'.issued ≤ s.issued + 1 := by
  have kept : ∀ {s' : State}, s'.issued = s.issued → s'.issued ≤ s.issued + 1 :=
    fun same => Nat.le_succ_of_le (Nat.le_of_eq same)
  cases change with
  | reset | crashed current => exact kept (cleared_issued s)
  | dropped => exact kept (cleared_issued s)
  | answered current found survives =>
    apply kept
    rw [State.settle_eq]
    rfl
  | failed current found handshake =>
    apply kept
    rw [cleared_issued, State.settle_eq]
    rfl
  | overran found expired held run => exact kept (cleared_issued _)
  | sent found ready dispatch => exact Nat.le_of_eq dispatch.issued
  | pinged provision unready dispatch =>
    rw [dispatch.issued, provision.table.2.1]
    exact Nat.le_refl _
  | _ => exact kept rfl

theorem Course.issued_le (course : Course settings past s) : s.issued ≤ past.length := by
  induction course with
  | start => exact Nat.le_refl 0
  | extend earlier change ih =>
    rw [List.length_append]
    exact Nat.le_trans change.issued_le (Nat.succ_le_succ ih)

theorem Course.pending_issued (course : Course settings past s) :
    ∀ record ∈ s.pending, ∃ n < s.issued, record.id = settings.ids n := by
  induction course with
  | start => simp
  | @extend past s s' action effects earlier change ih =>
    intro record held
    cases change.table with
    | reduced shorter issued =>
      obtain ⟨n, before, own⟩ := ih record (shorter.mem held)
      exact ⟨n, Nat.lt_of_lt_of_le before issued, own⟩
    | @added new generation dispatches id issued =>
      replace issued : s'.issued = s.issued + 1 := issued
      rw [show s'.pending = new :: s.pending from dispatches.pending] at held
      rcases List.mem_cons.mp held with rfl | held
      · exact ⟨s.issued, by omega, id⟩
      · obtain ⟨n, before, own⟩ := ih record held
        exact ⟨n, by omega, own⟩

theorem Course.counted (course : Course settings past s) : Shift.Counted s := by
  intro live held
  have balance : opened (past.flatMap Transition.effects) =
      ended (past.flatMap Transition.effects) ++ s.current?.toList := course.custody.balance
  have current : live.generation ∈ opened (past.flatMap Transition.effects) := by
    rw [balance]
    simp [State.current?, held]
  have created := (opened_sublist _).mem current
  rw [course.created, List.mem_range'_1] at created
  exact created.1

end

/-! ## Two runs -/

namespace Shift

section
variable {σ τ : Type} {shift : Shift} {contexts : Contexts σ} {others : Contexts τ}
  {same : σ → τ → Prop} {settings fresh : Settings}

structure InStep (shift : Shift) (settings : Settings) (same : σ → τ → Prop) (left : State × σ)
    (right : State × τ) (done done' : List Effect) : Prop where
  elder : shift.Elder settings right.1 left.1
  same : same left.2 right.2
  done : done = done'.map shift.effect

theorem Elder.pending_issued {left right : State} (elder : shift.Elder settings right left)
    {count : Nat} (renames : shift.Renames settings fresh count) {past : List Transition}
    (course : Course fresh past right) (bounded : right.issued ≤ count) :
    ∀ record ∈ left.pending, ∃ n, shift.issued ≤ n ∧ record.id = settings.ids n := by
  cases elder with
  | @beside old width inert =>
  intro record held
  obtain ⟨young, pending, rfl⟩ := List.mem_map.mp held
  obtain ⟨n, before, own⟩ := course.pending_issued young pending
  refine ⟨shift.issued + n, Nat.le_add_right _ _, ?_⟩
  rw [← renames.issues n (Nat.lt_of_lt_of_le before bounded), ← own]
  rfl

theorem Elder.step {left right : State} {w : σ} {v : τ} (elder : shift.Elder settings right left)
    (start : same w v) (distinct : Function.Injective settings.ids) {count : Nat}
    (renames : shift.Renames settings fresh count) (mirrors : shift.Mirrors contexts others same)
    {past : List Transition} (course : Course fresh past right) (bounded : right.issued < count)
    {action : Action} (stays : action ≠ .drop) :
    shift.InStep settings same (step contexts settings (left, w) action)
      (run others fresh (right, v) (shift.project? action).toList)
      (transition contexts settings left w action).effects
      ((trace others fresh (right, v) (shift.project? action).toList).flatMap
        Transition.effects) := by
  have counted := course.counted
  rcases shift.project?_cases action with ⟨nothing, stale⟩ | ⟨action', something, rfl⟩
  · have issued := elder.pending_issued renames course (Nat.le_of_lt bounded)
    obtain ⟨left', stepped, elder'⟩ := elder.step_stale contexts distinct counted issued stale w
    obtain ⟨_, recorded, -⟩ :=
      elder.step_stale contexts.recorded distinct counted issued stale (w, [])
    rw [nothing, stepped]
    refine ⟨elder', start, ?_⟩
    simp only [transition, recorded]
    rfl
  · have stays' : action' ≠ .drop := by
      rintro rfl
      exact stays rfl
    cases elder with
    | @beside old width inert =>
    obtain ⟨reached, same'⟩ := step_behind mirrors width renames counted bounded start stays'
    obtain ⟨-, -, done⟩ := step_behind mirrors.recorded width renames counted bounded
      (w := (w, [])) (v := (v, [])) ⟨start, rfl⟩ stays'
    rw [something]
    refine ⟨?_, same', ?_⟩
    · rw [reached]
      exact .beside width inert
    · simpa [trace, transition] using done

theorem Elder.run {left : State} {w : σ} {v : τ} (elder : shift.Elder settings {} left)
    (start : same w v) (distinct : Function.Injective settings.ids) {later : List Action}
    (renames : shift.Renames settings fresh later.length)
    (mirrors : shift.Mirrors contexts others same) (stays : .drop ∉ later) :
    ∀ seen rest, later = seen ++ rest →
      shift.InStep settings same (run contexts settings (left, w) seen)
        (run others fresh ({}, v) (seen.filterMap shift.project?))
        ((trace contexts settings (left, w) seen).flatMap Transition.effects)
        ((trace others fresh ({}, v) (seen.filterMap shift.project?)).flatMap
          Transition.effects) := by
  intro seen
  -- Each action leads from runs in step to runs in step, and the new client has issued no more ids
  -- than it was told names for.
  induction seen using List.reverseRecOn with
  | nil => exact fun _ _ => ⟨elder, start, rfl⟩
  | append_singleton seen action ih =>
    intro rest split
    rw [List.append_assoc] at split
    obtain ⟨elder', same', done⟩ := ih _ split
    have course := course_of_run others fresh v (seen.filterMap shift.project?)
    have bounded : (Client.run others fresh ({}, v) (seen.filterMap shift.project?)).1.issued <
        later.length := by
      have issued := course.issued_le
      have shorter := List.length_filterMap_le shift.project? seen
      rw [trace_length] at issued
      rw [split]
      simp only [List.length_append, List.length_singleton]
      omega
    have stays' : action ≠ .drop := by
      rintro rfl
      exact stays (by simp [split])
    obtain ⟨elder'', same'', done'⟩ :=
      elder'.step same' distinct renames mirrors course bounded stays'
    have one : [action].filterMap shift.project? = (shift.project? action).toList := by
      cases found : shift.project? action <;> simp [found]
    rw [List.filterMap_append, one, run_append, run_append, trace_append, trace_append,
      List.flatMap_append, List.flatMap_append]
    refine ⟨elder'', same'', ?_⟩
    rw [List.map_append, done, ← done']
    simp [trace]

end

end Shift

def State.shift (s : State) (rename : Equiv.Perm CorrelationId) : Shift where
  now := s.now
  generation := s.generation
  issued := s.issued
  callers := s.calls.length
  rename

def State.outcome? (s : State) (caller : Nat) : Option (Except Failure (Option RunOutput)) :=
  match s.phase? caller with
  | some (.finished outcome) => some outcome
  | _ => none

structure Reborn (shift : Shift) (left right : State) (done done' : List Effect) : Prop where
  calls : left.calls.length = shift.callers + right.calls.length
  outcomes : ∀ caller, left.outcome? (shift.callers + caller) = right.outcome? caller
  effects : done = done'.map shift.effect
  isReady : left.isReady = right.isReady
  hasContext : left.hasContext = right.hasContext
  pendingCount : left.pendingCount = right.pendingCount

theorem Shift.InStep.reborn {σ τ : Type} {shift : Shift} {settings : Settings}
    {same : σ → τ → Prop} {left : State × σ} {right : State × τ} {done done' : List Effect}
    (inStep : shift.InStep settings same left right done done') :
    Reborn shift left.1 right.1 done done' := by
  obtain ⟨elder, -, effects⟩ := inStep
  generalize left.1 = s at elder ⊢
  cases elder with
  | @beside old width inert =>
  constructor
  · exact Shift.length width right.1
  · intro caller
    rw [State.outcome?, State.outcome?, State.phase?, State.phase?, Shift.found width]
    rcases right.1.calls[caller]? with _ | ⟨ask, _ | wait | outcome | _⟩ <;> rfl
  · exact effects
  · exact Shift.state_isReady right.1
  · simp [State.hasContext, Shift.state]
  · simp [State.pendingCount, Shift.state]

theorem Course.reset_cut {settings : Settings} {past : List Transition} {s : State}
    (course : Course settings past s) {σ : Type} (contexts : Contexts σ) (w : σ) {action : Action}
    (alive : s.dropped = false) (resets : (transition contexts settings s w action).Resets) :
    Cut s action (transition contexts settings s w action).after ∧
      (transition contexts settings s w action).after.dropped = false := by
  have change := transition_change contexts settings s w action
  cases resets with
  | asked reset =>
    obtain rfl : action = .reset := reset
    have stays : Action.reset ≠ .drop := by simp
    refine ⟨?_, (change.dropped_eq settings stays).trans alive⟩
    rw [transition_after]
    simp only [step, alive, Bool.false_eq_true, if_false]
    exact .of_cleared rfl fun _ => id
  | destroyed stays gone =>
    exact ⟨change.cut course.numbered.idle stays gone, (change.dropped_eq settings stays).trans alive⟩

theorem Cut.elder {settings : Settings} {past : List Transition} {s s' : State} {action : Action}
    (cut : Cut s action s') (course : Course settings past s')
    (distinct : Function.Injective settings.ids) (alive : s'.dropped = false)
    (unpassed : ∀ caller, s.Passes caller → action.actor? s = some caller)
    (rename : Equiv.Perm CorrelationId) : (s'.shift rename).Elder settings {} s' := by
  have calm : AllInert settings s'.issued s'.calls := by
    refine course.inert distinct cut.pending ?_
    intro caller passing
    obtain ⟨aside, before⟩ := cut.passes caller passing
    exact aside (unpassed caller before)
  have bare : s' = (s'.shift rename).state s'.calls {} := by
    obtain ⟨live, pending, -⟩ := cut
    rcases s' with ⟨now, _, generation, issued, _, calls, _⟩
    cases live
    cases pending
    cases alive
    simp only [Shift.state, State.shift, List.map_nil, List.append_nil]
    rfl
  have elder : (s'.shift rename).Elder settings {} ((s'.shift rename).state s'.calls {}) :=
    .beside rfl calm
  rwa [← bare] at elder

/-- A client that is reset, or whose context is destroyed, while no run is about to send its snippet
(but the one whose post fails) is from then on what a new client is, whatever its old calls and
contexts do: up to names and numbers, calls end alike, the contexts made from then on are asked the
same and destroyed alike, and what one sees of the client is the same at every moment. -/
theorem reset_leaves_no_history {σ τ : Type} (contexts : Contexts σ) (others : Contexts τ)
    (settings fresh : Settings) (distinct : Function.Injective settings.ids) (w : σ) (v : τ)
    (past : List Action) (action : Action) (before after : State × σ)
    (reached : run contexts settings ({}, w) past = before) (alive : before.1.dropped = false)
    (unpassed : ∀ caller, before.1.Passes caller → action.actor? before.1 = some caller)
    (resets : (transition contexts settings before.1 before.2 action).Resets)
    (stepped : step contexts settings before action = after) (rename : Equiv.Perm CorrelationId)
    (later : List Action) (stays : .drop ∉ later)
    (renames : (after.1.shift rename).Renames settings fresh later.length) (same : σ → τ → Prop)
    (mirrors : (after.1.shift rename).Mirrors contexts others same) (start : same after.2 v) :
    ∀ seen rest, later = seen ++ rest →
      Reborn (after.1.shift rename) (run contexts settings after seen).1
        (run others fresh ({}, v) (seen.filterMap (after.1.shift rename).project?)).1
        ((trace contexts settings after seen).flatMap Transition.effects)
        ((trace others fresh ({}, v)
          (seen.filterMap (after.1.shift rename).project?)).flatMap Transition.effects) := by
  have course := course_of_run contexts settings w past
  rw [reached] at course
  have course' := course.extend (transition_change contexts settings before.1 before.2 action)
  obtain ⟨cut, alive'⟩ := course.reset_cut contexts before.2 alive resets
  rw [transition_after, stepped] at course' cut alive'
  have elder := cut.elder course' distinct alive' unpassed rename
  intro seen rest split
  exact (elder.run start distinct renames mirrors stays seen rest split).reborn

def orphaned : State × Unit :=
  run willing counted ({}, ()) [.begin (.run "first" none), .event 1 (.crashed "gone")]

def swapped : Equiv.Perm CorrelationId := Equiv.swap (counted.ids 1) ⟨"y"⟩

def newcomer : Settings where
  ids n := swapped.symm (counted.ids (1 + n))

def aftermath : List Action :=
  [.begin (.run "second" none), .event 1 (.response ⟨counted.ids 0, .ready⟩),
    .event 2 (.response ⟨counted.ids 1, .ready⟩), .proceed 0, .proceed 1, .proceed 1,
    .event 2 (.response ⟨counted.ids 2, .result "out" ""⟩), .proceed 1]

theorem reset_leaves_no_history_orphaned :
    Reborn (orphaned.1.shift swapped) (run willing counted orphaned aftermath).1
      (run willing newcomer ({}, ())
        (aftermath.filterMap (orphaned.1.shift swapped).project?)).1
      ((trace willing counted orphaned aftermath).flatMap Transition.effects)
      ((trace willing newcomer ({}, ())
        (aftermath.filterMap (orphaned.1.shift swapped).project?)).flatMap Transition.effects) ∧
    (run willing newcomer ({}, ())
      (aftermath.filterMap (orphaned.1.shift swapped).project?)).1.outcome? 0 =
      some (.ok (some ⟨"out", ""⟩)) := by
  let before := run willing counted ({}, ()) [.begin (.run "first" none)]
  have unpassed : ∀ caller, before.1.Passes caller →
      (Action.event 1 (.crashed "gone")).actor? before.1 = some caller := by
    rintro (_ | caller) ⟨call, found, passing⟩
    · obtain rfl := Option.some.inj found
      cases passing with
      | answered handshake replied => cases replied
    · cases found
  have resets : (transition willing counted before.1 before.2 (.event 1 (.crashed "gone"))).Resets :=
    .destroyed (by simp [transition]) (List.mem_singleton_self (Effect.destroyed 1))
  have renames : (orphaned.1.shift swapped).Renames counted newcomer aftermath.length :=
    ⟨rfl, Equiv.swap_apply_of_ne_of_ne (by decide) (by decide),
      fun n _ => Equiv.apply_symm_apply _ _⟩
  have mirrors : (orphaned.1.shift swapped).Mirrors willing willing fun _ _ => True :=
    ⟨fun _ _ _ => ⟨_, _, _, rfl, rfl, trivial⟩, fun _ _ _ _ => ⟨_, _, _, rfl, rfl, trivial⟩,
      fun _ _ _ => trivial⟩
  have reborn := reset_leaves_no_history willing willing counted newcomer counted_injective () ()
    [.begin (.run "first" none)] (.event 1 (.crashed "gone")) before orphaned rfl rfl unpassed resets
    rfl swapped aftermath (by decide) renames (fun _ _ => True) mirrors trivial aftermath [] rfl
  exact ⟨reborn, (reborn.outcomes 0).symm.trans rfl⟩

end Sandbox.Client

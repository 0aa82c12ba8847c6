import Sandbox.Proofs.Client.Settlement

namespace Sandbox.Client

def Phase.isUnanswered : Phase → Bool
  | .waiting wait => wait.reply.isNone
  | _ => false

def Phase.isCancelled : Phase → Bool
  | .cancelled => true
  | _ => false

namespace State

variable (s : State)

def unanswered : List Nat :=
  (List.range s.calls.length).filter fun caller => (s.phase? caller).any Phase.isUnanswered

def orphans : List Record :=
  s.pending.filter fun record => (s.phase? record.caller).any Phase.isCancelled

variable {s}

theorem mem_unanswered {caller : Nat} : caller ∈ s.unanswered ↔
    ∃ ask wait, s.calls[caller]? = some ⟨ask, .waiting wait⟩ ∧ wait.reply = none := by
  simp only [unanswered, List.mem_filter, List.mem_range, phase?]
  constructor
  · rintro ⟨known, waits⟩
    rcases found : s.calls[caller]? with _ | ⟨ask, _ | wait | outcome | _⟩
    · simp [found] at waits
    · simp [found, Phase.isUnanswered] at waits
    · exact ⟨ask, wait, rfl, by simpa [found, Phase.isUnanswered] using waits⟩
    · simp [found, Phase.isUnanswered] at waits
    · simp [found, Phase.isUnanswered] at waits
  · rintro ⟨ask, wait, found, unreplied⟩
    refine ⟨(List.getElem?_eq_some_iff.mp found).choose, ?_⟩
    simp [found, Phase.isUnanswered, unreplied]

theorem mem_orphans {record : Record} : record ∈ s.orphans ↔
    record ∈ s.pending ∧ s.phase? record.caller = some .cancelled := by
  rw [orphans, List.mem_filter]
  refine and_congr_right fun _ => ?_
  rcases s.phase? record.caller with _ | _ | wait | outcome | _ <;> simp [Phase.isCancelled]

end State

/-! ## The table and the calls -/

section
variable {known : List Record} {gone : List Removal} {s : State}

theorem Linked.held_of_unreplied (linked : Linked known gone s) {caller : Nat} {ask : Ask}
    {wait : Wait} (found : s.calls[caller]? = some ⟨ask, .waiting wait⟩) :
    wait.reply = none ↔ wait.record caller ∈ s.pending := by
  constructor
  · intro unreplied
    rcases linked.fates _ (linked.waits caller ask wait found) with
      held | ⟨removal, left, same, call, found', follows⟩
    · exact held
    · cases found.symm.trans found'
      cases follows with
      | told own replied => exact nomatch unreplied.symm.trans replied
      | runs leads other => exact absurd rfl other
  · intro held
    obtain ⟨call, found', awaits⟩ := linked.awaited _ held
    cases found.symm.trans found'
    cases awaits with
    | waiting own unreplied => exact unreplied

theorem Linked.listed (linked : Linked known gone s) :
    List.Perm (s.pending.map Record.caller) (s.unanswered ++ s.orphans.map Record.caller) := by
  have apart : ∀ caller ∈ s.unanswered, ∀ orphaned ∈ s.orphans.map Record.caller,
      caller ≠ orphaned := by
    rintro caller waits _ orphaned rfl
    obtain ⟨ask, wait, found, -⟩ := State.mem_unanswered.mp waits
    obtain ⟨record, orphan, rfl⟩ := List.mem_map.mp orphaned
    obtain ⟨-, cancelled⟩ := State.mem_orphans.mp orphan
    rw [State.phase?, found] at cancelled
    cases cancelled
  have orphans_nodup : (s.orphans.map Record.caller).Nodup :=
    linked.callers.sublist (List.filter_sublist.map _)
  refine (List.perm_ext_iff_of_nodup linked.callers ?_).mpr fun caller => ?_
  · exact List.nodup_append.mpr ⟨List.nodup_range.filter _, orphans_nodup, apart⟩
  rw [List.mem_append]
  constructor
  · intro among
    obtain ⟨record, held, rfl⟩ := List.mem_map.mp among
    obtain ⟨⟨ask, phase⟩, found, awaits⟩ := linked.awaited record held
    cases awaits with
    | @waiting wait own unreplied => exact .inl (State.mem_unanswered.mpr ⟨ask, wait, found, unreplied⟩)
    | cancelled =>
      have cancelled : s.phase? record.caller = some .cancelled := by rw [State.phase?, found]; rfl
      exact .inr (List.mem_map_of_mem (State.mem_orphans.mpr ⟨held, cancelled⟩))
  · rintro (waits | orphaned)
    · obtain ⟨ask, wait, found, unreplied⟩ := State.mem_unanswered.mp waits
      exact List.mem_map_of_mem (f := Record.caller) ((linked.held_of_unreplied found).mp unreplied)
    · exact (List.filter_sublist.map _).mem orphaned

end

/-! ## How records are orphaned -/

section
variable {settings : Settings} {past : List Transition} {s s' : State} {action : Action}
  {effects : List Effect} {record : Record}

theorem Dispatch.admits {provided : State} {caller : Nat} {awaited : Awaited} {kind : Request.Kind}
    {budget : Duration} (dispatch : Dispatch settings provided caller awaited kind budget effects s')
    (pending : provided.pending = s.pending) (held : record ∈ s'.pending)
    (absent : record ∉ s.pending) : record.caller = caller := by
  cases dispatch with
  | registered _ =>
    rcases List.mem_cons.mp held with rfl | old
    · rfl
    · exact absurd (pending ▸ old) absent
  | unposted _ cause =>
    rw [State.finish, State.setPhase, cleared_pending] at held
    cases held

theorem Change.registers_uncancelled (change : Change settings s action effects s')
    (held : record ∈ s'.pending) (absent : record ∉ s.pending) :
    s.phase? record.caller ≠ some .cancelled := by
  have admitted : ∀ {ask : Ask}, s.Admits record.caller ask →
      s.phase? record.caller ≠ some .cancelled := by
    intro ask admits cancelled
    obtain ⟨call, found, gone⟩ := Option.map_eq_some_iff.mp cancelled
    exact State.not_admits found (by simp [gone]) admits
  cases change.table with
  | reduced shorter issued => exact absurd (shorter.mem held) absent
  | added dispatches id issued =>
    obtain ⟨call, kind, found, request, posted⟩ := dispatches.asked
    cases change with
    | sent found' ready dispatch =>
      exact admitted (.inr (dispatch.admits rfl held absent ▸ found'))
    | @pinged ask _ _ _ _ provision unready dispatch =>
      have admits : s.Admits record.caller ask :=
        .inl (dispatch.admits provision.table.1 held absent)
      exact admitted admits
    | reset | crashed | dropped | failed | overran => exact (not_posted_of_teardown posted).elim
    | _ => simp at posted

end

/-! ## How calls are given up -/

section
variable {settings : Settings} {s s' : State} {action : Action} {effects : List Effect} {i : Nat}

theorem cancelled_of_given {reply : Except Failure Reply} {call? : Option Call}
    (after : (call?.map (Call.given reply)).map Call.phase = some .cancelled) :
    call?.map Call.phase = some .cancelled := by
  rcases call? with _ | ⟨ask, _ | wait | outcome | _⟩
  · cases after
  · cases after
  · cases after
  · cases after
  · rfl

theorem cancelled_of_settle {caller : Nat} {reply : Except Failure Reply}
    (after : (s.settle caller reply).phase? i = some .cancelled) :
    s.phase? i = some .cancelled := by
  rw [State.phase?, State.calls_settle] at after
  split at after
  · exact cancelled_of_given after
  · exact after

theorem cancelled_of_cleared (after : s.cleared.phase? i = some .cancelled) :
    s.phase? i = some .cancelled := by
  rw [State.phase?, State.calls_cleared] at after
  split at after
  · exact cancelled_of_given after
  · exact after

theorem cancelled_of_setPhase {caller : Nat} {phase : Phase}
    (after : (s.setPhase caller phase).phase? i = some .cancelled) :
    s.phase? i = some .cancelled ∨ i = caller ∧ phase = .cancelled := by
  rw [State.phase?, State.calls_setPhase] at after
  split at after
  · rename_i same
    obtain ⟨call, found, eq⟩ := Option.map_eq_some_iff.mp after
    obtain ⟨before, -, rfl⟩ := Option.map_eq_some_iff.mp found
    exact .inr ⟨same, eq⟩
  · exact .inl after

theorem resolution_ne_cancelled {ask : Ask} {awaited : Awaited} {reply : Except Failure Reply} :
    resolution ask awaited reply ≠ .cancelled := by
  intro eq
  have := resolution_cases ask awaited reply
  simp [eq] at this

theorem Change.cancels (change : Change settings s action effects s')
    (after : s'.phase? i = some .cancelled) : s.phase? i = some .cancelled ∨
      action = .cancel i ∧ s' = s.setPhase i .cancelled ∧
        ∃ phase, s.phase? i = some phase ∧ phase.isActive = true := by
  have moved : ∀ {s : State} {caller : Nat} {phase : Phase},
      (s.setPhase caller phase).phase? i = some .cancelled → phase ≠ .cancelled →
      s.phase? i = some .cancelled := by
    intro s caller phase after other
    exact (cancelled_of_setPhase after).resolve_right fun own => other own.2
  have opened : ∀ {ask : Ask}, (s.opened ask).phase? i = some .cancelled →
      s.phase? i = some .cancelled := by
    intro ask after
    rw [State.phase?, State.calls_opened] at after
    split at after
    · cases after
    · exact after
  have dispatched : ∀ {provided : State} {caller : Nat} {awaited : Awaited} {kind : Request.Kind}
      {budget : Duration} {posted : List Effect},
      Dispatch settings provided caller awaited kind budget posted s' →
      provided.phase? i = some .cancelled := by
    intro provided caller awaited kind budget posted dispatch
    cases dispatch with
    | registered held => exact (moved after (by simp) :)
    | unposted held cause => exact (cancelled_of_cleared (moved after (by simp)) :)
  cases change with
  | @cancelled caller phase found active =>
    rcases cancelled_of_setPhase after with before | ⟨rfl, -⟩
    · exact .inl before
    · exact .inr ⟨rfl, rfl, phase, found, active⟩
  | idle | advanced span => exact .inl after
  | reset | crashed current => exact .inl (cancelled_of_cleared after)
  | dropped => exact .inl (cancelled_of_cleared after :)
  | answered current found survives => exact .inl (cancelled_of_settle after :)
  | failed current found handshake =>
    exact .inl (cancelled_of_settle (cancelled_of_cleared after) :)
  | refused found unready => exact .inl (moved after (by simp))
  | sent found ready dispatch => exact .inl (dispatched dispatch)
  | noticed found unexpired unreplied due => exact .inl (moved after (by simp))
  | resolved found replied => exact .inl (moved after resolution_ne_cancelled)
  | lapsed found expired held handshake => exact .inl (moved after (by simp) :)
  | overran found expired held run => exact .inl (cancelled_of_cleared (moved after (by simp)) :)
  | uncreated absent cause | unwarmed absent cause => exact .inl (opened (moved after (by simp) :))
  | entered ready => exact .inl (opened (moved after resolution_ne_cancelled))
  | pinged provision unready dispatch =>
    have before := dispatched dispatch
    rw [State.phase?, provision.table.2.2] at before
    exact .inl (opened before)

end

/-! ## Orphans over a course -/

def GivenUp (past : List Transition) (record : Record) : Prop :=
  ∃ t ∈ past, t.action = .cancel record.caller ∧ record ∈ t.before.pending ∧
    record.caller ∈ t.before.unanswered

section
variable {settings : Settings} {past : List Transition} {s : State}

theorem Course.givenUp (course : Course settings past s) (distinct : Function.Injective settings.ids)
    {record : Record} (orphan : record ∈ s.orphans) : GivenUp past record := by
  induction course with
  | start => simp [State.orphans] at orphan
  | @extend past s s' action effects earlier change ih =>
    obtain ⟨held, cancelled⟩ := State.mem_orphans.mp orphan
    rcases change.cancels cancelled with before | ⟨acts, same, phase, found, active⟩
    · have held' : record ∈ s.pending := by
        by_contra absent
        exact change.registers_uncancelled held absent before
      obtain ⟨t, member, givenUp⟩ := ih (State.mem_orphans.mpr ⟨held', before⟩)
      exact ⟨t, List.mem_append_left _ member, givenUp⟩
    · have held' : record ∈ s.pending := by
        rw [same] at held
        exact held
      refine ⟨_, List.mem_append_right _ (List.mem_singleton_self _), acts, held', ?_⟩
      obtain ⟨⟨ask, phase'⟩, found', awaits⟩ := (earlier.linked distinct).awaited record held'
      rw [State.phase?, found'] at found
      obtain rfl := Option.some.inj found
      cases awaits with
      | @waiting wait own unreplied =>
        exact State.mem_unanswered.mpr ⟨ask, wait, found', unreplied⟩
      | cancelled => cases active

theorem Linked.orphaned {known : List Record} {gone : List Removal} (linked : Linked known gone s)
    {caller : Nat} (waits : caller ∈ s.unanswered) :
    ∃ record ∈ (cancel s caller).orphans, record.caller = caller ∧ record ∈ s.pending := by
  obtain ⟨ask, wait, found, unreplied⟩ := State.mem_unanswered.mp waits
  have held := (linked.held_of_unreplied found).mp unreplied
  have cancelled : cancel s caller = s.setPhase caller .cancelled := by
    simp [cancel, State.phase?, found, Phase.isActive]
  refine ⟨wait.record caller, ?_, rfl, held⟩
  rw [cancelled, State.mem_orphans, State.phase?]
  refine ⟨held, ?_⟩
  rw [show (wait.record caller).caller = caller from rfl, setPhase_found found]
  rfl

theorem Course.orphan_stays {s' : State} {action : Action} {effects : List Effect}
    (course : Course settings past s) (distinct : Function.Injective settings.ids)
    (change : Change settings s action effects s') {record : Record} (orphan : record ∈ s.orphans) :
    record ∈ s'.orphans ∨ ∃ removal ∈ (Transition.mk action s effects s').removals,
      removal.record = record ∧ Explained past ⟨action, s, effects, s'⟩ removal ∧
        ∀ budget, removal.remover ≠ .timer budget := by
  obtain ⟨held, cancelled⟩ := State.mem_orphans.mp orphan
  obtain ⟨call, found, gone⟩ := Option.map_eq_some_iff.mp cancelled
  have ended : call.phase.isActive = false := by rw [gone]; rfl
  have still : s'.phase? record.caller = some .cancelled := by
    rw [State.phase?, change.ended found ended, Option.map_some, gone]
  by_cases stays : record ∈ s'.pending
  · exact .inl (State.mem_orphans.mpr ⟨stays, still⟩)
  · have removed : (⟨record, (Transition.mk action s effects s').remover record⟩ : Removal) ∈
        (Transition.mk action s effects s').removals :=
      (Transition.mem_removals _).mpr ⟨held, stays, rfl⟩
    refine .inr ⟨_, removed, rfl, course.explained distinct change removed, ?_⟩
    intro budget timed
    have untimed : (Transition.mk action s effects s').remover record ≠ .timer budget := by
      simp only [Transition.remover, cancelled]
      split
      · split <;> simp
      · simp
      · simp
    exact untimed timed

end

structure Listed (past : List Transition) (s : State) : Prop where
  listed : List.Perm (s.pending.map Record.caller) (s.unanswered ++ s.orphans.map Record.caller)
  counted : s.pendingCount = s.unanswered.length + s.orphans.length
  own : ∀ (caller : Nat) (ask : Ask) (wait : Wait),
    s.calls[caller]? = some ⟨ask, .waiting wait⟩ →
    (wait.reply = none ↔ wait.record caller ∈ s.pending)
  exact_unless : s.pendingCount = s.unanswered.length ↔ s.orphans = []
  givenUp : ∀ record ∈ s.orphans, GivenUp past record
  outlives : ∀ caller ∈ s.unanswered, ∃ record ∈ (cancel s caller).orphans,
    record.caller = caller ∧ record ∈ s.pending
  stays : ∀ earlier t later, past = earlier ++ t :: later → ∀ record ∈ t.before.orphans,
    record ∈ t.after.orphans ∨ ∃ removal ∈ t.removals, removal.record = record ∧
      Explained earlier t removal ∧ ∀ budget, removal.remover ≠ .timer budget

/-- At every moment of every run the table lists the calls that wait for an outcome, each once, and
the calls that were given up while they waited, whose records have not been answered yet. -/
theorem table_lists_waiting_and_orphaned {σ : Type} (contexts : Contexts σ) (settings : Settings)
    (distinct : Function.Injective settings.ids) (w : σ) (actions : List Action) :
    Listed (trace contexts settings ({}, w) actions)
      (run contexts settings ({}, w) actions).1 := by
  have course := course_of_run contexts settings w actions
  have linked := course.linked distinct
  have counted : _ = _ := linked.listed.length_eq
  rw [List.length_map, List.length_append, List.length_map] at counted
  refine ⟨linked.listed, counted, ?_, ?_, ?_, ?_, ?_⟩
  · exact fun caller ask wait found => linked.held_of_unreplied found
  · rw [State.pendingCount, counted, ← List.length_eq_zero_iff]
    omega
  · exact fun record orphan => course.givenUp distinct orphan
  · exact fun caller waits => linked.orphaned waits
  · intro earlier t later split record orphan
    rw [split] at course
    obtain ⟨before, change⟩ := course.split
    exact before.orphan_stays distinct change orphan

def abandonment : List Action := [.begin (.ready ⟨1⟩), .begin (.ready ⟨2⟩), .cancel 0]

theorem table_lists_waiting_and_orphaned_abandonment : Function.Injective counted.ids ∧
    Listed (trace willing counted ({}, ()) abandonment)
      (run willing counted ({}, ()) abandonment).1 ∧
    (run willing counted ({}, ()) abandonment).1.unanswered = [1] ∧
    (run willing counted ({}, ()) abandonment).1.orphans = [⟨counted.ids 0, .handshake, 0⟩] :=
  ⟨counted_injective,
    table_lists_waiting_and_orphaned willing counted counted_injective () abandonment, rfl, rfl⟩

/-- The table may list more calls than wait, since a call that is given up leaves its record. -/
theorem record_outlives_call : Function.Injective counted.ids ∧
    (run willing counted ({}, ()) abandonment).1.pendingCount ≠
      (run willing counted ({}, ()) abandonment).1.unanswered.length ∧
    ∃ record ∈ (run willing counted ({}, ()) abandonment).1.pending,
      (run willing counted ({}, ()) abandonment).1.phase? record.caller = some .cancelled :=
  ⟨counted_injective, by decide, ⟨counted.ids 0, .handshake, 0⟩,
    .tail _ (.head _), rfl⟩

end Sandbox.Client

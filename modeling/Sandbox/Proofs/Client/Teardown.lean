import Sandbox.Proofs.Client.Ending
import Sandbox.Proofs.Client.Timer

namespace Sandbox.Client

/-! ## Calls that were told -/

def State.Told (s : State) (caller : Nat) (ask : Ask) (awaited : Awaited)
    (reply : Except Failure Reply) : Prop :=
  ∃ wait, s.calls[caller]? = some ⟨ask, .waiting wait⟩ ∧ wait.awaited = awaited ∧
    wait.reply = some reply

section
variable {settings : Settings} {past : List Transition} {s s' : State} {action : Action}
  {effects : List Effect} {caller : Nat} {ask : Ask} {awaited : Awaited}
  {reply : Except Failure Reply}

theorem ended_run {σ : Type} (contexts : Contexts σ) {w : σ} {call : Call}
    (found : s.calls[caller]? = some call) (ended : call.phase.isActive = false)
    (later : List Action) : (run contexts settings (s, w) later).1.calls[caller]? = some call := by
  induction later generalizing s w with
  | nil => exact found
  | cons action rest ih =>
    have after := (transition_change contexts settings s w action).ended found ended
    rw [transition_after] at after
    exact ih after

theorem Course.not_pending_of_replied (course : Course settings past s)
    (distinct : Function.Injective settings.ids) {wait : Wait}
    (found : s.calls[caller]? = some ⟨ask, .waiting wait⟩) (replied : wait.reply = some reply) :
    (∀ record ∈ s.pending, record.caller ≠ caller) ∧ s.record? wait.id = none := by
  have linked := course.linked distinct
  have owes : ∀ record ∈ s.pending, record.caller ≠ caller := by
    refine fun record held => linked.not_pending found ?_ held
    intro record awaits
    cases awaits with
    | waiting own unreplied => exact nomatch unreplied.symm.trans replied
  refine ⟨owes, Option.eq_none_iff_forall_ne_some.mpr ?_⟩
  intro record held
  obtain ⟨rfl, pending⟩ := linked.own_record (course.orderly distinct) found held
  exact owes _ pending rfl

theorem Course.told (course : Course settings past s) (distinct : Function.Injective settings.ids)
    (change : Change settings s action effects s') (told : s.Told caller ask awaited reply) :
    s'.Told caller ask awaited reply ∨
      action = .proceed caller ∧
        s'.calls[caller]? = some ⟨ask, resolution ask awaited reply⟩ ∨
      action = .cancel caller ∧ s'.calls[caller]? = some ⟨ask, .cancelled⟩ := by
  obtain ⟨wait, found, rfl, replied⟩ := told
  obtain ⟨idle, gone⟩ := course.not_pending_of_replied distinct found replied
  have known : caller < s.calls.length := (List.getElem?_eq_some_iff.mp found).choose
  by_cases acts : action.actor? s = some caller
  · cases action with
    | begin ask' => exact absurd (Option.some.inj acts) (Nat.ne_of_gt known)
    | cancel caller' =>
      obtain rfl := Option.some.inj acts
      cases change with
      | idle => exact .inl ⟨wait, found, rfl, replied⟩
      | cancelled found' active => exact .inr (.inr ⟨rfl, setPhase_found found _⟩)
    | proceed caller' =>
      obtain rfl := Option.some.inj acts
      cases change with
      | idle => exact .inl ⟨wait, found, rfl, replied⟩
      | refused found' | sent found' => exact nomatch found.symm.trans found'
      | noticed found' unexpired unreplied =>
        cases found.symm.trans found'
        exact nomatch unreplied.symm.trans replied
      | resolved found' leaves =>
        cases found.symm.trans found'
        refine .inr (.inl ⟨rfl, ?_⟩)
        cases leaves with
        | arrived unexpired replied' =>
          cases replied.symm.trans replied'
          exact setPhase_found found _
        | late expired gone =>
          rw [replied]
          exact setPhase_found found _
      | lapsed found' expired held | overran found' expired held =>
        cases found.symm.trans found'
        exact nomatch gone.symm.trans held
    | _ => cases acts
  · rcases change.untouched acts with same | ⟨record, held, left, own, -⟩
    · exact .inl ⟨wait, same.trans found, rfl, replied⟩
    · exact absurd own (idle record held)

theorem Course.proceed_told (course : Course settings past s)
    (distinct : Function.Injective settings.ids) {σ : Type} (contexts : Contexts σ) (w : σ)
    (told : s.Told caller ask awaited reply) :
    (step contexts settings (s, w) (.proceed caller)).1.calls[caller]? =
      some ⟨ask, resolution ask awaited reply⟩ := by
  obtain ⟨wait, found, rfl, replied⟩ := told
  cases expired : wait.expired with
  | true =>
    obtain ⟨-, gone⟩ := course.not_pending_of_replied distinct found replied
    rw [proceed_late contexts found expired gone replied]
    exact setPhase_found found _
  | false =>
    have taken : (step contexts settings (s, w) (.proceed caller)).1 =
        takeReply s caller ask wait.awaited reply := by
      simp [step, proceed, found, expired, replied]
    rw [taken, takeReply_eq]
    exact setPhase_found found _

end

/-- What becomes of a call that is to reach a phase: its next section takes it there, or it has been
there, or it was given up before. -/
inductive Fate {σ : Type} (contexts : Contexts σ) (settings : Settings) (start : State × σ)
    (caller : Nat) (target : Phase) (later : List Action) : Prop
  | due {wait : Wait}
    (waits : (run contexts settings start later).1.phase? caller = some (.waiting wait))
    (next : (run contexts settings start (later ++ [.proceed caller])).1.phase? caller = some target)
  | reached {earlier : List Action} (upto : earlier <+: later)
    (reached : (run contexts settings start earlier).1.phase? caller = some target)
    (stays : target.isActive = false →
      (run contexts settings start later).1.phase? caller = some target)
  | cancelled (withdrawn : .cancel caller ∈ later)
    (gone : (run contexts settings start later).1.phase? caller = some .cancelled)

section
variable {σ : Type} {contexts : Contexts σ} {settings : Settings} {past : List Transition}
  {start : State × σ} {s : State} {caller : Nat} {target : Phase} {later : List Action}

theorem Fate.cons {action : Action}
    (fate : Fate contexts settings (step contexts settings start action) caller target later) :
    Fate contexts settings start caller target (action :: later) := by
  cases fate with
  | due waits next => exact .due waits next
  | reached upto reached stays =>
    exact .reached (List.cons_prefix_cons.mpr ⟨rfl, upto⟩) reached stays
  | cancelled withdrawn gone => exact .cancelled (List.mem_cons_of_mem _ withdrawn) gone

theorem phase?_of_found {call : Call} (found : s.calls[caller]? = some call) :
    s.phase? caller = some call.phase := by
  rw [State.phase?, found]
  rfl

theorem Fate.of_ended (there : start.1.phase? caller = some target)
    (ended : target.isActive = false) : Fate contexts settings start caller target later := by
  obtain ⟨call, found, rfl⟩ := Option.map_eq_some_iff.mp there
  exact .reached List.nil_prefix there fun _ =>
    phase?_of_found (ended_run contexts found ended later)

theorem Course.fate (course : Course settings past s) (distinct : Function.Injective settings.ids)
    {w : σ} {ask : Ask} {awaited : Awaited} {reply : Except Failure Reply}
    (told : s.Told caller ask awaited reply) (later : List Action) :
    Fate contexts settings (s, w) caller (resolution ask awaited reply) later := by
  induction later generalizing past s w with
  | nil =>
    have next := course.proceed_told distinct contexts w told
    obtain ⟨wait, found, -, -⟩ := told
    exact .due (phase?_of_found found) (phase?_of_found next)
  | cons action rest ih =>
    have change := transition_change contexts settings s w action
    have extended := course.extend change
    have moved := course.told distinct change told
    rw [transition_after] at extended moved
    rcases moved with told | ⟨rfl, after⟩ | ⟨rfl, after⟩
    · exact (ih extended told).cons
    · have upto : [Action.proceed caller] <+: .proceed caller :: rest :=
        List.cons_prefix_cons.mpr ⟨rfl, List.nil_prefix⟩
      refine .reached upto (phase?_of_found after) fun ended => ?_
      exact phase?_of_found (ended_run contexts after ended rest)
    · exact .cancelled (List.mem_cons_self ..) (phase?_of_found (ended_run contexts after rfl rest))

end

/-! ## What ends a context -/

/-- What makes a client tear its context down, with the call that brings it about and what that
call is told. -/
inductive Trigger (settings : Settings) (t : Transition) : Option (Nat × Failure) → Prop
  | overran {caller : Nat} {ask : Ask} {wait : Wait} {record : Record}
    (action : t.action = .proceed caller)
    (found : t.before.calls[caller]? = some ⟨ask, .waiting wait⟩) (expired : wait.expired = true)
    (run : wait.awaited = .run) (held : t.before.record? wait.id = some record) :
    Trigger settings t (some (caller, .executionTimeout (ask.execution settings)))
  | crashed {generation : Nat} {reason : String}
    (action : t.action = .event generation (.crashed reason))
    (current : t.before.current? = some generation) : Trigger settings t none
  | declined {generation : Nat} {id : CorrelationId} {message : String} {record : Record}
    (action : t.action = .event generation (.response ⟨id, .failure message⟩))
    (current : t.before.current? = some generation) (found : t.before.record? id = some record)
    (handshake : record.awaited = .handshake) :
    Trigger settings t (some (record.caller, .bootstrapFailure message))
  | unposted {caller generation : Nat} {request : Request} {cause : Failure}
    (acts : t.action.actor? t.before = some caller)
    (failed : .posted generation request (.error cause) ∈ t.effects) :
    Trigger settings t (some (caller, cause))
  | reset (action : t.action = .reset) (alive : t.before.dropped = false) : Trigger settings t none
  | dropped (action : t.action = .drop)
    (idle : ∀ call ∈ t.before.calls, call.phase.isActive = false) : Trigger settings t none

section
variable {σ : Type} {contexts : Contexts σ} {settings : Settings} {past : List Transition}
  {s : State} {w : σ} {action : Action} {culprit : Option (Nat × Failure)}

theorem Trigger.retires (trigger : Trigger settings (transition contexts settings s w action) culprit)
    (idle : s.live = none → s.pending = []) :
    (step contexts settings (s, w) action).1.live = none ∧
      (step contexts settings (s, w) action).1.pending = [] := by
  cases trigger with
  | @overran caller ask wait record acts found expired run held =>
    obtain rfl : action = .proceed caller := acts
    have after : (step contexts settings (s, w) (.proceed caller)).1 =
        (s.removeRecord wait.id).cleared.finish caller (.error (.executionTimeout wait.budget)) := by
      replace found : s.calls[caller]? = some ⟨ask, .waiting wait⟩ := found
      replace held : s.record? wait.id = some record := held
      simp only [step, proceed, found, expired, if_true, expire, held, run]
      rfl
    rw [after]
    exact ⟨cleared_live _, cleared_pending _⟩
  | @crashed generation reason acts current =>
    obtain rfl : action = .event generation (.crashed reason) := acts
    have after : (step contexts settings (s, w) (.event generation (.crashed reason))).1 =
        s.cleared := by
      replace current : s.live.map Live.generation = some generation := current
      simp only [step, onEvent, current, if_true]
      rfl
    rw [after]
    exact ⟨cleared_live _, cleared_pending _⟩
  | @declined generation id message record acts current found handshake =>
    obtain rfl : action = .event generation (.response ⟨id, .failure message⟩) := acts
    have after : (step contexts settings (s, w)
        (.event generation (.response ⟨id, .failure message⟩))).1 =
        ((s.removeRecord id).settle record.caller (.error (.bootstrapFailure message))).cleared := by
      replace current : s.live.map Live.generation = some generation := current
      replace found : s.record? id = some record := found
      simp only [step, onEvent, current, if_true, onResponse, found, handshake]
      rfl
    rw [after]
    exact ⟨cleared_live _, cleared_pending _⟩
  | unposted acts failed =>
    have unposted := (transition_change contexts settings s w action).post_failed failed
    rw [← transition_after]
    refine ⟨unposted.retired, ?_⟩
    rcases unposted.emptied with empty | ⟨absent, same⟩
    · exact empty
    · exact same.trans (idle absent)
  | reset acts alive =>
    obtain rfl : action = .reset := acts
    have after : (step contexts settings (s, w) .reset).1 = s.cleared := by
      replace alive : s.dropped = false := alive
      simp only [step, alive, Bool.false_eq_true, if_false]
      rfl
    rw [after]
    exact ⟨cleared_live _, cleared_pending _⟩
  | dropped acts idle =>
    obtain rfl : action = .drop := acts
    have after : (step contexts settings (s, w) .drop).1 = { s.cleared with dropped := true } := by
      replace idle : ∀ call ∈ s.calls, call.phase.isActive = false := idle
      have none_active : s.calls.any (·.phase.isActive) = false := by simpa using idle
      simp only [step, drop, none_active, Bool.false_eq_true, if_false]
      rfl
    rw [after]
    exact ⟨cleared_live s, cleared_pending s⟩

theorem Trigger.interrupts {effects : List Effect} {s' : State}
    (trigger : Trigger settings ⟨action, s, effects, s'⟩ culprit)
    (change : Change settings s action effects s') (orderly : Orderly settings past s)
    {record : Record} (held : record ∈ s.pending)
    (other : ∀ cause, culprit ≠ some (record.caller, cause)) :
    action.actor? s ≠ some record.caller ∧
      (Transition.mk action s effects s').remover record = .reset := by
  have apart : ∀ {caller cause}, culprit = some (caller, cause) → caller ≠ record.caller := by
    rintro caller cause rfl rfl
    exact other cause rfl
  have passed : ∀ {caller}, caller ≠ record.caller →
      (Transition.mk (.proceed caller) s effects s').remover record = .reset := by
    intro caller apart
    rw [Transition.remover]
    dsimp only
    split
    · exact if_neg apart
    · rfl
  cases trigger with
  | overran acts found expired run held' =>
    obtain rfl : action = _ := acts
    exact ⟨fun acts => apart rfl (Option.some.inj acts), passed (apart rfl)⟩
  | @declined generation id message record' acts current found handshake =>
    obtain rfl : action = _ := acts
    refine ⟨by simp [Action.actor?], if_neg ?_⟩
    rintro rfl
    obtain ⟨held', same⟩ := mem_of_record? found
    exact apart rfl (congrArg Record.caller (orderly.alone held _ held' same))
  | @unposted caller generation request cause acts failed =>
    refine ⟨fun acts' => apart rfl (Option.some.inj (acts.symm.trans acts')), ?_⟩
    cases action with
    | begin ask => rfl
    | proceed caller' =>
      obtain rfl := Option.some.inj acts
      exact passed (apart rfl)
    | cancel caller' => cases change <;> simp at failed
    | _ => cases acts
  | crashed acts | reset acts | dropped acts =>
    obtain rfl : action = _ := acts
    exact ⟨by simp [Action.actor?], rfl⟩

theorem Trigger.not_cancel {effects : List Effect} {s' : State}
    (trigger : Trigger settings ⟨action, s, effects, s'⟩ culprit)
    (change : Change settings s action effects s') (caller : Nat) : action ≠ .cancel caller := by
  rintro rfl
  cases trigger with
  | unposted acts failed => cases change <;> simp at failed
  | overran acts | crashed acts | declined acts | reset acts | dropped acts => exact nomatch acts

theorem resolution_error (ask : Ask) (awaited : Awaited) (cause : Failure) :
    resolution ask awaited (.error cause) = .finished (.error cause) := by
  cases awaited <;> rfl

theorem Course.fate_of_removed {effects : List Effect} {s' : State} {w' : σ}
    (course : Course settings past s) (distinct : Function.Injective settings.ids)
    (change : Change settings s action effects s') (emptied : s'.pending = []) {record : Record}
    (held : record ∈ s.pending) (alive : s.phase? record.caller ≠ some .cancelled)
    (passive : action.actor? s ≠ some record.caller) {cause : Failure}
    (outcome : Removal.outcome
      ⟨record, (Transition.mk action s effects s').remover record⟩ = .error cause)
    (later : List Action) :
    Fate contexts settings (s', w') record.caller (.finished (.error cause)) later := by
  have extended := course.extend change
  have removed : (⟨record, (Transition.mk action s effects s').remover record⟩ : Removal) ∈
      removals (past ++ [⟨action, s, effects, s'⟩]) := by
    rw [removals_append, removals_singleton]
    exact List.mem_append_right _
      ((Transition.mem_removals _).mpr ⟨held, by simp [emptied], rfl⟩)
  obtain ⟨⟨ask, phase⟩, found, awaits⟩ := (course.linked distinct).awaited record held
  obtain ⟨call, after, follows⟩ := extended.follows distinct removed
  rw [outcome] at follows
  have waits : ∃ wait, phase = .waiting wait := by
    cases awaits with
    | @waiting wait own unreplied => exact ⟨wait, rfl⟩
    | cancelled => exact absurd (phase?_of_found found) alive
  obtain ⟨wait, rfl⟩ := waits
  have still : ∃ wait', call = ⟨ask, .waiting wait'⟩ := by
    rcases change.untouched passive with same | ⟨-, -, -, -, reply, told⟩
    · exact ⟨wait, Option.some.inj (after.symm.trans (same.trans found))⟩
    · rw [told, found] at after
      exact ⟨_, (Option.some.inj after).symm⟩
  obtain ⟨wait', rfl⟩ := still
  cases follows with
  | told own replied =>
    rw [← resolution_error ask record.awaited cause]
    exact extended.fate distinct ⟨wait', after, congrArg Record.awaited own, replied⟩ later
  | runs leads other => exact nomatch (resolution_error _ _ _).symm.trans leads

theorem Trigger.fate {effects : List Effect} {s' : State} {w' : σ}
    (trigger : Trigger settings ⟨action, s, effects, s'⟩ culprit) (course : Course settings past s)
    (distinct : Function.Injective settings.ids) (change : Change settings s action effects s')
    (emptied : s'.pending = []) {caller : Nat} {cause : Failure} (own : culprit = some (caller, cause))
    (alive : s.phase? caller ≠ some .cancelled) (later : List Action) :
    Fate contexts settings (s', w') caller (.finished (.error cause)) later := by
  cases trigger with
  | @overran caller ask wait record acts found expired run held =>
    cases own
    obtain rfl : action = .proceed caller := acts
    replace found : s.calls[caller]? = some ⟨ask, .waiting wait⟩ := found
    obtain ⟨-, pending⟩ := (course.linked distinct).own_record (course.orderly distinct) found held
    refine .of_ended ?_ rfl
    cases change.of_wait found with
    | waits same | replied same => simp [← same, emptied] at pending
    | timed held expired left torn after =>
      rw [phase?_of_found after, Removal.outcome, show (wait.record caller).awaited = _ from run,
        resolution_error, course.budget found, run]
      rfl
  | @declined generation id message record acts current found handshake =>
    cases own
    obtain rfl : action = _ := acts
    obtain ⟨held, rfl⟩ := mem_of_record? found
    refine course.fate_of_removed distinct change emptied held alive (by simp [Action.actor?]) ?_ later
    simp [Transition.remover, Removal.outcome, handshake, answer]
  | unposted acts failed =>
    cases own
    obtain ⟨caller', acts', ended⟩ := (change.post_failed failed).failed
    obtain rfl := Option.some.inj (acts.symm.trans acts')
    exact .of_ended ended rfl
  | crashed | reset | dropped => cases own

end

structure Torn {σ : Type} (contexts : Contexts σ) (settings : Settings) (before after : State × σ)
    (culprit : Option (Nat × Failure)) : Prop where
  retired : after.1.live = none
  unready : after.1.isReady = false
  emptied : after.1.pending = []
  waits : ∀ (caller : Nat) (ask : Ask) (wait : Wait),
    before.1.calls[caller]? = some ⟨ask, .waiting wait⟩ →
    wait.record caller ∈ before.1.pending ∨ ∃ reply, wait.reply = some reply
  own : ∀ caller cause, culprit = some (caller, cause) →
    before.1.phase? caller ≠ some .cancelled →
    ∀ later, Fate contexts settings after caller (.finished (.error cause)) later
  interrupted : ∀ record ∈ before.1.pending, (∀ cause, culprit ≠ some (record.caller, cause)) →
    before.1.phase? record.caller ≠ some .cancelled →
    ∀ later, Fate contexts settings after record.caller (.finished (.error .resetInterrupted)) later
  delivered : ∀ (caller : Nat) (ask : Ask) (awaited : Awaited) (reply : Except Failure Reply),
    before.1.Told caller ask awaited reply →
    ∀ later, Fate contexts settings after caller (resolution ask awaited reply) later
  concluded : ∀ (caller : Nat) (result : Except Failure (Option RunOutput)),
    before.1.phase? caller = some (.finished result) →
    ∀ later, (run contexts settings after later).1.phase? caller = some (.finished result)
  again : ∀ w, reset contexts after.1 w = (after.1, w)

/-- Whatever ends a context, each call that used it gets one outcome: its own failure if it brought
the end about, else the outcome that it already had, else that it was interrupted. -/
theorem teardown_reaches_everyone {σ : Type} (contexts : Contexts σ) (settings : Settings)
    (distinct : Function.Injective settings.ids) (w : σ) (actions : List Action)
    (before after : State × σ) (reached : run contexts settings ({}, w) actions = before)
    (action : Action) (culprit : Option (Nat × Failure))
    (trigger : Trigger settings (transition contexts settings before.1 before.2 action) culprit)
    (torn : step contexts settings before action = after) :
    Torn contexts settings before after culprit := by
  have course := course_of_run contexts settings w actions
  rw [reached] at course
  obtain ⟨s, w₁⟩ := before
  obtain ⟨s', w₂⟩ := after
  have change := transition_change contexts settings s w₁ action
  have ended := trigger.retires course.numbered.idle
  have same := transition_after contexts settings s w₁ action
  rw [torn] at ended same
  rw [same] at change
  have shape : transition contexts settings s w₁ action =
      ⟨action, s, (transition contexts settings s w₁ action).effects, s'⟩ := by
    rw [← show (transition contexts settings s w₁ action).after = s' from same]
    rfl
  rw [shape] at trigger
  obtain ⟨retired, emptied⟩ := ended
  dsimp only at retired emptied
  refine ⟨retired, by simp [State.isReady, retired], emptied, ?_, ?_, ?_, ?_, ?_, ?_⟩
  · intro caller ask wait found
    cases held : s.record? wait.id with
    | none => exact .inr ((course.linked distinct).reply_of_gone found held)
    | some record =>
      obtain ⟨rfl, pending⟩ := (course.linked distinct).own_record (course.orderly distinct) found held
      exact .inl pending
  · intro caller cause own alive later
    exact trigger.fate course distinct change emptied own alive later
  · intro record held other alive later
    obtain ⟨passive, remover⟩ := trigger.interrupts change (course.orderly distinct) held other
    refine course.fate_of_removed distinct change emptied held alive passive ?_ later
    rw [remover]
    rfl
  · intro caller ask awaited reply told later
    rcases course.told distinct change told with still | ⟨-, after⟩ | ⟨acts, -⟩
    · exact (course.extend change).fate distinct still later
    · refine .reached List.nil_prefix (phase?_of_found after) fun ended => ?_
      exact phase?_of_found (ended_run contexts after ended later)
    · exact absurd acts (trigger.not_cancel change caller)
  · intro caller result concluded later
    obtain ⟨call, found, ended⟩ := Option.map_eq_some_iff.mp concluded
    have finished : call.phase.isActive = false := by rw [ended]; rfl
    rw [phase?_of_found (ended_run contexts (change.ended found finished) finished later), ended]
  · intro w
    obtain ⟨now, live, generation, issued, pending, calls, dropped⟩ := s'
    dsimp only at retired emptied
    subst retired emptied
    rfl

def shared : List Action :=
  let brief : Option Budgets := some ⟨⟨1⟩, ⟨1⟩⟩
  [.begin (.run "first" brief), .event 1 (.response ⟨counted.ids 0, .ready⟩), .proceed 0, .proceed 0,
    .begin (.run "second" brief), .proceed 1, .begin (.run "third" none), .proceed 2,
    .event 1 (.response ⟨counted.ids 1, .result "out" ""⟩), .advance ⟨2⟩, .proceed 1]

theorem teardown_reaches_everyone_shared :
    Torn willing counted (run willing counted ({}, ()) shared)
      (run willing counted ({}, ()) (shared ++ [.proceed 1])) (some (1, .executionTimeout ⟨1⟩)) ∧
    (run willing counted ({}, ()) (shared ++ [.proceed 1, .proceed 0, .proceed 2])).1.calls.map
      Call.phase = [.finished (.ok (some ⟨"out", ""⟩)), .finished (.error (.executionTimeout ⟨1⟩)),
        .finished (.error .resetInterrupted)] := by
  refine ⟨?_, rfl⟩
  have overran := @Trigger.overran counted
    (transition willing counted (run willing counted ({}, ()) shared).1 () (.proceed 1)) 1
    (.run "second" (some ⟨⟨1⟩, ⟨1⟩⟩)) _ _ rfl rfl rfl rfl rfl
  exact teardown_reaches_everyone willing counted counted_injective () shared _ _ rfl (.proceed 1) _
    overran (run_append willing counted ({}, ()) shared [.proceed 1]).symm

end Sandbox.Client

import Sandbox.Context.Fleet
import Sandbox.Proofs.Client.Stray
import Sandbox.Proofs.Client.Verdict

namespace Sandbox.Client

def timeout : Awaited → Duration → Failure
  | .handshake, budget => .initTimeout budget
  | .run, budget => .executionTimeout budget

inductive Grants (settings : Settings) : Ask → Awaited → Duration → Prop
  | ready (budget : Duration) : Grants settings (.ready budget) .handshake budget
  | chosenReadiness (code : String) (chosen : Budgets) :
    Grants settings (.run code (some chosen)) .handshake chosen.readiness
  | chosenExecution (code : String) (chosen : Budgets) :
    Grants settings (.run code (some chosen)) .run chosen.execution
  | defaultReadiness (code : String) :
    Grants settings (.run code none) .handshake settings.budgets.readiness
  | defaultExecution (code : String) :
    Grants settings (.run code none) .run settings.budgets.execution

/-- In this transition the record stays in the table, its context lives and does not answer it, and
there is no reset. -/
structure Transition.Spares (u : Transition) (record : Record) (generation : Nat) : Prop where
  holds : u.Holds record
  current : u.before.current? = some generation ∧ u.after.current? = some generation
  unanswered : ∀ kind, u.action ≠ .event generation (.response ⟨record.id, kind⟩)
  unreset : u.action ≠ .reset
  undestroyed : ∀ other, .destroyed other ∉ u.effects

inductive TimedOut (settings : Settings) (past : List Transition) (caller : Nat) (ask : Ask)
    (awaited : Awaited) (budget : Duration) : Prop
  | intro {earlier middle later : List Transition} {sent fired : Transition} {record : Record}
    {generation : Nat} (split : past = earlier ++ sent :: (middle ++ fired :: later))
    (grants : Grants settings ask awaited budget)
    (own : record.caller = caller ∧ record.awaited = awaited)
    (acts : sent.action.actor? sent.before = some caller)
    (dispatches : sent.Dispatches record generation)
    (elapsed : sent.before.now + budget ≤ fired.before.now)
    (waiting : record ∈ fired.before.pending)
    (proceeds : fired.action = .proceed caller)
    (concludes : fired.Concludes caller ask (.error (timeout awaited budget)))
    (spares : ∀ u ∈ middle, u.Spares record generation)

def Relayed (past : List Transition) (caller : Nat) (cause : Failure) : Prop :=
  ∃ t ∈ past, t.action.actor? t.before = some caller ∧
    t.after.phase? caller = some (.finished (.error cause)) ∧
    ∃ effect ∈ t.effects, effect.cause? = some cause

/-! ## What timeouts come from -/

theorem timeout_inj {awaited awaited' : Awaited} {budget budget' : Duration}
    (same : timeout awaited budget = timeout awaited' budget') :
    awaited = awaited' ∧ budget = budget' := by
  cases awaited <;> cases awaited' <;> cases same <;> exact ⟨rfl, rfl⟩

theorem Removal.outcome_timer (record : Record) (budget : Duration) :
    Removal.outcome ⟨record, .timer budget⟩ = .error (timeout record.awaited budget) := by
  obtain ⟨id, awaited, caller⟩ := record
  cases awaited <;> rfl

theorem Removal.timer_of_outcome {removal : Removal} {awaited : Awaited} {budget : Duration}
    (expired : removal.outcome = .error (timeout awaited budget)) :
    ∃ budget', removal.remover = .timer budget' := by
  obtain ⟨⟨id, awaited', caller⟩, kind | budget' | _⟩ := removal
  · cases awaited <;> cases awaited' <;> cases kind <;> cases expired
  · exact ⟨budget', rfl⟩
  · cases awaited <;> cases expired

theorem reply_of_resolution {ask : Ask} {awaited awaited' : Awaited} {budget : Duration}
    {reply : Except Failure Reply}
    (leads : resolution ask awaited reply = .finished (.error (timeout awaited' budget))) :
    reply = .error (timeout awaited' budget) := by
  rcases reply with cause | reply
  · cases awaited <;> cases leads <;> rfl
  · cases awaited <;> cases reply <;> cases awaited' <;> cases ask <;> cases leads

theorem Grants.of_budget {settings : Settings} {ask : Ask} {awaited : Awaited}
    {kind : Request.Kind} (request : ask.request? awaited = some kind) :
    Grants settings ask awaited (ask.budget settings awaited) := by
  cases ask with
  | ready budget =>
    cases awaited with
    | handshake => exact .ready budget
    | run => cases request
  | run code budgets =>
    cases budgets with
    | none =>
      cases awaited with
      | handshake => exact .defaultReadiness code
      | run => exact .defaultExecution code
    | some chosen =>
      cases awaited with
      | handshake => exact .chosenReadiness code chosen
      | run => exact .chosenExecution code chosen

section
variable {settings : Settings} {past : List Transition} {s s' : State} {action : Action}
  {effects : List Effect} {caller : Nat} {ask : Ask} {awaited : Awaited} {budget : Duration}

/-- A call that waits does not find a timeout in place of its record: its own timer is the only one
that could have left it there, and that ends the call. -/
theorem Course.reply_ne_timeout (course : Course settings past s)
    (distinct : Function.Injective settings.ids) {wait : Wait}
    (found : s.calls[caller]? = some ⟨ask, .waiting wait⟩)
    (replied : wait.reply = some (.error (timeout awaited budget))) : False := by
  obtain ⟨⟨record, remover⟩, removed, same, outcome⟩ :=
    (course.linked distinct).replied found replied
  obtain ⟨budget', timer⟩ := Removal.timer_of_outcome outcome
  dsimp only at same timer
  subst same timer
  -- Only its own timer leaves a timeout to a call, and that ends the call.
  obtain ⟨ask', result, ended⟩ := course.timed distinct removed
  cases found.symm.trans ended

theorem Change.proceeds (change : Change settings s action effects s')
    (acts : action.actor? s = some caller) {wait : Wait}
    {result : Except Failure (Option RunOutput)}
    (found : s.calls[caller]? = some ⟨ask, .waiting wait⟩)
    (after : s'.calls[caller]? = some ⟨ask, .finished result⟩) : action = .proceed caller := by
  cases action with
  | begin other =>
    have known : caller < s.calls.length := (List.getElem?_eq_some_iff.mp found).choose
    exact absurd (Option.some.inj acts) (Nat.ne_of_gt known)
  | proceed other => exact congrArg Action.proceed (Option.some.inj acts)
  | cancel other =>
    obtain rfl := Option.some.inj acts
    cases change with
    | idle => cases found.symm.trans after
    | cancelled => cases (setPhase_found found _).symm.trans after
  | _ => cases acts

theorem Course.expires (course : Course settings past s)
    (distinct : Function.Injective settings.ids) (change : Change settings s action effects s')
    (concludes : (Transition.mk action s effects s').Concludes caller ask
      (.error (timeout awaited budget))) :
    (∃ effect ∈ effects, effect.cause? = some (timeout awaited budget)) ∨
    action = .proceed caller ∧ ∃ wait, s.calls[caller]? = some ⟨ask, .waiting wait⟩ ∧
      wait.expired = true ∧ wait.record caller ∈ s.pending ∧ wait.awaited = awaited ∧
      wait.budget = budget := by
  obtain ⟨acts, unfinished, after⟩ := concludes
  dsimp only at acts unfinished after
  rcases change.turn acts with rfl | ⟨ask', phase, after', turn⟩
  · exact absurd after unfinished
  cases after.symm.trans after'
  generalize eq : Phase.finished (.error (timeout awaited budget)) = phase at turn
  cases turn with
  | refused admits => cases awaited <;> cases eq
  | failed admits member failure =>
    cases eq
    exact .inl ⟨_, member, failure⟩
  | entered admits => cases reply_of_resolution eq.symm
  | @replied wait reply found replied =>
    have same := reply_of_resolution eq.symm
    have there : wait.reply = some (.error (timeout awaited budget)) := by
      cases replied with
      | arrived unexpired replied => rw [replied, same]
      | late expired gone =>
        obtain ⟨reply, replied⟩ := (course.linked distinct).reply_of_gone found gone
        rw [replied] at same ⊢
        exact congrArg some same
    exact (course.reply_ne_timeout distinct found there).elim
  | @timed wait record found expired held =>
    obtain ⟨rfl, pending⟩ :=
      (course.linked distinct).own_record (course.orderly distinct) found held
    rw [Removal.outcome_timer] at eq
    have same := reply_of_resolution eq.symm
    obtain ⟨rfl, rfl⟩ := timeout_inj (Except.error.inj same)
    exact .inr ⟨change.proceeds acts found after, wait, found, expired, pending, rfl, rfl⟩
  | _ => cases eq

end

/-! ## While a record is in the table -/

section
variable {σ : Type} (contexts : Contexts σ) {settings : Settings} {s : State} {record : Record}

theorem answer_removes {generation : Nat} (current : s.current? = some generation) (w : σ)
    (kind : Response.Kind) : record ∉ (step contexts settings (s, w)
      (.event generation (.response ⟨record.id, kind⟩))).1.pending := by
  have matched : s.live.map Live.generation = some generation := current
  have left : record ∉ (s.removeRecord record.id).pending := by simp [State.removeRecord]
  have cleared : ∀ s : State, ∀ w, record ∉ (reset contexts s w).1.pending := by
    intro s w
    simp [show (reset contexts s w).1 = s.cleared from rfl, cleared_pending]
  rw [step, onEvent, if_pos matched]
  dsimp only [onResponse]
  split
  · rename_i absent
    intro held
    simp only [State.record?, List.find?_eq_none] at absent
    exact absent record held (by simp)
  · split
    · rw [settle_pending]
      exact left
    · exact cleared _ _
    all_goals
      rw [settle_pending]
      exact left

theorem reset_removes (w : σ) (kept : s.dropped = false) :
    record ∉ (step contexts settings (s, w) .reset).1.pending := by
  rw [step, if_neg (by simp [kept])]
  simp [show (reset contexts s w).1 = s.cleared from rfl, cleared_pending]

end

theorem spares_of_holds {σ : Type} (contexts : Contexts σ) {settings : Settings}
    (distinct : Function.Injective settings.ids) {w : σ} {actions : List Action}
    {earlier later : List Transition} {u : Transition}
    (split : trace contexts settings ({}, w) actions = earlier ++ u :: later) {record : Record}
    {generation : Nat} (dispatched : DispatchedOn earlier record generation)
    (holds : u.Holds record) : u.Spares record generation := by
  have course := course_of_run contexts settings w actions
  rw [split] at course
  obtain ⟨before, change⟩ := course.split
  have after := before.extend change
  have current := before.pending_current distinct dispatched holds.1
  obtain ⟨front, back, -, -, here, -⟩ := trace_split_run contexts settings split
  have reached : u.before = (run contexts settings ({}, w) front).1 :=
    congrArg Transition.before here
  have left : u.after = (step contexts settings (run contexts settings ({}, w) front) u.action).1 :=
    (congrArg Transition.after here).trans (transition_after ..)
  constructor
  case holds => exact holds
  case current => exact ⟨current, after.pending_current distinct (dispatched.mono _) holds.2⟩
  case unanswered =>
    intro kind answered
    rw [reached] at current
    apply answer_removes contexts current (run contexts settings ({}, w) front).2 kind
    rw [← answered, ← left]
    exact holds.2
  case unreset =>
    intro resets
    have kept : u.before.dropped = false := by
      apply eq_false_of_ne_true
      intro dropped
      rw [reached] at dropped
      have retired := run_retired contexts settings ({}, w) nofun front dropped
      have held := holds.1
      simp [reached, retired.pending] at held
    rw [reached] at kept
    apply reset_removes contexts (run contexts settings ({}, w) front).2 kept
    rw [← resets, ← left]
    exact holds.2
  case undestroyed =>
    intro other destroyed
    have empty := after.numbered.idle (change.torn destroyed)
    have held := holds.2
    simp [empty] at held

/-! ## Contexts that do not time out -/

structure Contexts.Untimed {σ : Type} (contexts : Contexts σ) : Prop where
  create : ∀ w generation awaited budget,
    (contexts.create w generation).1 ≠ .error (timeout awaited budget)
  post : ∀ w generation request awaited budget,
    (contexts.post w generation request).1 ≠ .error (timeout awaited budget)

theorem link_ne_timeout (fault : LinkFault) (awaited : Awaited) (budget : Duration) :
    (.error (.link fault) : Except Failure Unit) ≠ .error (timeout awaited budget) := by
  intro same
  cases awaited <;> cases same

theorem Stage.untimed : Stage.world.contexts.Untimed := by
  constructor
  · intro stage generation awaited budget
    change (stage.create generation).1 ≠ _
    rw [Stage.create]
    split
    · exact link_ne_timeout _ _ _
    · nofun
  · intro stage generation request awaited budget
    change (stage.post generation request).1 ≠ _
    rw [Stage.post]
    split
    · exact link_ne_timeout _ _ _
    · nofun

end Sandbox.Client

namespace Sandbox.Context

open Client (timeout link_ne_timeout)

theorem Body.post_ne_timeout (body : Body) (request : Request) (awaited : Awaited)
    (budget : Duration) : (body.post request).1 ≠ .error (timeout awaited budget) := by
  cases body with
  | thread thread =>
    change (thread.post request).1 ≠ _
    rw [Thread.post]
    split
    · exact link_ne_timeout _ _ _
    · nofun
  | process process =>
    change (process.post request).1 ≠ _
    rw [Process.post]
    split
    · exact link_ne_timeout _ _ _
    split
    · exact link_ne_timeout _ _ _
    · nofun

theorem Fleet.untimed : Fleet.world.contexts.Untimed := by
  constructor
  · intro fleet generation awaited budget
    change (fleet.create generation).1 ≠ _
    rw [Fleet.create]
    split
    · nofun
    · rename_i command here _
      rw [Command.spawn]
      cases here.program command.worker with
      | ok image => nofun
      | error cause => exact link_ne_timeout _ _ _
  · intro fleet generation request awaited budget
    change (fleet.post generation request).1 ≠ _
    rw [Fleet.post]
    split
    · exact Body.post_ne_timeout _ request awaited budget
    · exact link_ne_timeout _ _ _

end Sandbox.Context

namespace Sandbox.Client

section
variable {σ : Type} {contexts : Contexts σ} (settings : Settings) {awaited : Awaited}
  {budget : Duration}

theorem Contexts.Untimed.transition (untimed : contexts.Untimed) (s : State) (w : σ)
    (action : Action) :
    ∀ effect ∈ (transition contexts settings s w action).effects,
      effect.cause? ≠ some (timeout awaited budget) := by
  have kept : Keeps (fun _ record => ∀ effect ∈ record,
      effect.cause? ≠ some (timeout awaited budget))
      (step contexts.recorded settings (s, w, []) action) := by
    apply step_keeps
    · intro w record generation request result posted earlier sent
      have own := untimed.post w generation request awaited budget
      rw [sent] at own
      apply List.forall_mem_append.mpr ⟨earlier, List.forall_mem_singleton.mpr _⟩
      cases result with
      | ok => nofun
      | error cause => exact fun same => own (congrArg Except.error (Option.some.inj same))
    · intro w record generation earlier
      exact List.forall_mem_append.mpr ⟨earlier, List.forall_mem_singleton.mpr nofun⟩
    · nofun
    · intro result made created
      have own := untimed.create w (s.generation + 1) awaited budget
      rw [created] at own
      simp only [List.forall_mem_singleton]
      cases result with
      | ok => nofun
      | error cause => exact fun same => own (congrArg Except.error (Option.some.inj same))
  exact kept

theorem Contexts.Untimed.not_relayed (untimed : contexts.Untimed) {start : State × σ}
    {actions : List Action} {caller : Nat} :
    ¬Relayed (trace contexts settings start actions) caller (timeout awaited budget) := by
  rintro ⟨t, member, -, -, effect, happened, cause⟩
  obtain ⟨earlier, later, split⟩ := List.append_of_mem member
  obtain ⟨w, performed⟩ := trace_split contexts settings split
  rw [performed] at happened
  exact untimed.transition settings _ _ _ effect happened cause

end

/-! ## Whole runs -/

theorem run_timedOut {σ : Type} (contexts : Contexts σ) (settings : Settings)
    (distinct : Function.Injective settings.ids) (w : σ) (actions : List Action) {caller : Nat}
    {ask : Ask} {awaited : Awaited} {budget : Duration}
    (found : (run contexts settings ({}, w) actions).1.calls[caller]? =
      some ⟨ask, .finished (.error (timeout awaited budget))⟩) :
    TimedOut settings (trace contexts settings ({}, w) actions) caller ask awaited budget ∨
      Relayed (trace contexts settings ({}, w) actions) caller (timeout awaited budget) := by
  have course := course_of_run contexts settings w actions
  obtain ⟨earlier, fired, later, split, concludes⟩ := course.concluded found
  rw [split] at course
  obtain ⟨before, change⟩ := course.split
  rcases before.expires distinct change concludes with
    ⟨effect, happened, cause⟩ | ⟨proceeds, wait, waits, expired, held, rfl, rfl⟩
  · right
    rw [split]
    exact ⟨fired, by simp, concludes.acts, phase?_of_found concludes.after, effect, happened, cause⟩
  · left
    have due := before.due waits expired
    obtain ⟨first, sent, middle, rfl, starts, holds⟩ := before.started distinct waits held
    obtain ⟨generation, dispatches⟩ := starts.dispatches
    obtain ⟨kind, request⟩ := starts.request
    rw [List.append_assoc, List.cons_append] at split
    constructor
    case split => exact split
    case dispatches => exact dispatches
    case own => exact ⟨rfl, rfl⟩
    case acts => exact starts.acts
    case grants =>
      rw [starts.granted]
      exact .of_budget request
    case elapsed => exact starts.due ▸ due
    case waiting => exact held
    case proceeds => exact proceeds
    case concludes => exact concludes
    case spares =>
      intro u member
      obtain ⟨front, back, rfl⟩ := List.append_of_mem member
      have here : trace contexts settings ({}, w) actions =
          (first ++ sent :: front) ++ u :: (back ++ fired :: later) := by
        rw [split]
        simp
      exact spares_of_holds contexts distinct here ⟨sent, by simp, dispatches⟩ (holds u member)

/-- A call that reports a timeout has had its time, or reports what its context told it. -/
structure Timely {σ : Type} (contexts : Contexts σ) (settings : Settings) (past : List Transition)
    (s : State) : Prop where
  due : ∀ caller ask awaited budget,
    s.calls[caller]? = some ⟨ask, .finished (.error (timeout awaited budget))⟩ →
    TimedOut settings past caller ask awaited budget ∨
      Relayed past caller (timeout awaited budget)
  strict : contexts.Untimed → ∀ caller ask awaited budget,
    s.calls[caller]? = some ⟨ask, .finished (.error (timeout awaited budget))⟩ →
    TimedOut settings past caller ask awaited budget

theorem timeouts_are_due {σ : Type} (contexts : Contexts σ) (settings : Settings)
    (distinct : Function.Injective settings.ids) (w : σ) (actions : List Action) :
    Timely contexts settings (trace contexts settings ({}, w) actions)
      (run contexts settings ({}, w) actions).1 := by
  constructor
  · intro caller ask awaited budget found
    exact run_timedOut contexts settings distinct w actions found
  · intro untimed caller ask awaited budget found
    apply (run_timedOut contexts settings distinct w actions found).resolve_right
    exact untimed.not_relayed settings

theorem timeouts_are_due_overrun : Function.Injective counted.ids ∧
    TimedOut counted
      (trace Context.Fleet.world.contexts counted ({}, { maker := .threads ⟨0⟩ }) overrun) 0
      (.run "loop" (some ⟨⟨1⟩, ⟨1⟩⟩)) .run ⟨1⟩ := by
  have timely := timeouts_are_due Context.Fleet.world.contexts counted counted_injective
    { maker := .threads ⟨0⟩ } overrun
  exact ⟨counted_injective, timely.strict Context.Fleet.untimed _ _ .run _ rfl⟩

end Sandbox.Client

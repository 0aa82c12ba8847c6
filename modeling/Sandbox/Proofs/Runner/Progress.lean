import Mathlib
import Sandbox.Proofs.Runner.Replies

namespace Sandbox.Runner

open Engine

/-! ## Runners that get on -/

/-- No engine has taken the runner along, and the bootstrap, if there is one, is in the hands of a
call that goes on. -/
structure Going (s : State) : Prop where
  running : s.halted = none
  ungranted : ∀ caller, s.turn ≠ .granted caller
  taken : ∀ bootstrap, s.turn = .taken bootstrap → s.outcome = none ∧
    ∃ task, s.calls[bootstrap.caller]? = some ⟨task, .active⟩

def State.work (s : State) : Nat :=
  s.calls.countP (·.phase = .active) + if s.outcome = none ∧ s.turn = .free then 1 else 0

section
variable {σ : Type} (provider : Provider σ) (budget : Duration)

theorem conclude_frame (s : State) (w : σ) (caller : Nat) (task : Task)
    (outcome : Except String Nat) :
    ∃ calls halted, (conclude provider s w caller task outcome).1 = { s with calls, halted } := by
  rcases task with _ | ⟨id, _ | code⟩ <;> rcases outcome with message | engine
  case answer.run.ok =>
    rcases executed : provider.execute w engine code with ⟨verdict, w'⟩
    cases verdict with
    | halt how => exact ⟨s.calls, some how, by simp only [conclude, executed]⟩
    | _ => exact ⟨_, s.halted, by simp only [conclude, executed, responseKind?]; rfl⟩
  all_goals exact ⟨_, _, rfl⟩

inductive Moved (s : State) (caller : Nat) (s' : State) : Prop
  | ended (turn : s'.turn = .free) (outcome : s'.outcome ≠ none)
  | waits {bootstrap : Bootstrap} (turn : s'.turn = .taken bootstrap)
    (own : bootstrap.caller = caller) (active : ∃ task, s.calls[caller]? = some ⟨task, .active⟩)
    (outcome : s'.outcome = none)

theorem endBootstrap_moved (s start : State) (w : σ) (caller : Nat) (task : Task)
    (outcome : Except String Nat) :
    Moved start caller (endBootstrap provider s w caller task outcome).1 := by
  obtain ⟨calls, halted, eq⟩ := conclude_frame provider
    { s with outcome := some outcome, turn := .free, queue := [] } w caller task outcome
  rw [endBootstrap, eq]
  exact .ended rfl nofun

theorem attend_moved {s start : State} (w : σ) (bootstrap : Bootstrap) {task : Task}
    (unsettled : s.outcome = none)
    (active : start.calls[bootstrap.caller]? = some ⟨task, .active⟩) :
    Moved start bootstrap.caller (attend provider budget s w bootstrap task).1 := by
  unfold attend
  split
  · exact endBootstrap_moved ..
  · split
    · exact endBootstrap_moved ..
    · exact .waits rfl rfl ⟨task, active⟩ unsettled

theorem attend_due {s : State} (w : σ) {bootstrap : Bootstrap} (task : Task)
    (due : bootstrap.deadline ≤ s.now) :
    (attend provider budget s w bootstrap task).1.outcome ≠ none := by
  have ended : ∀ outcome,
      (endBootstrap provider s w bootstrap.caller task outcome).1.outcome ≠ none := by
    intro outcome
    obtain ⟨calls, halted, eq⟩ := conclude_frame provider
      { s with outcome := some outcome, turn := .free, queue := [] } w bootstrap.caller task outcome
    rw [endBootstrap, eq]
    nofun
  unfold attend
  split
  · exact ended _
  · rw [if_pos due]
    exact ended _

theorem launch_moved {s : State} (w : σ) {caller : Nat} {task : Task}
    (unsettled : s.outcome = none) (active : s.calls[caller]? = some ⟨task, .active⟩) :
    Moved s caller (launch provider budget s w caller task).1 := by
  unfold launch
  dsimp only
  split
  · exact endBootstrap_moved ..
  · exact attend_moved provider budget _ ⟨caller, _, _, _⟩ unsettled active

theorem poll_moved (s : State) (w : σ) (caller : Nat) :
    (poll provider budget s w caller).1.turn = s.turn ∧
      (poll provider budget s w caller).1.outcome = s.outcome ∨
    s.outcome = none ∧ Moved s caller (poll provider budget s w caller).1 := by
  have enqueued : (enqueue s caller).turn = s.turn ∧ (enqueue s caller).outcome = s.outcome := by
    unfold enqueue
    split <;> exact ⟨rfl, rfl⟩
  unfold poll
  split
  · rename_i task running active
    split
    · obtain ⟨calls, halted, eq⟩ := conclude_frame provider s w caller task ‹_›
      rw [eq]
      exact .inl ⟨rfl, rfl⟩
    · rename_i unsettled free
      exact .inr ⟨unsettled, launch_moved provider budget w unsettled active⟩
    · rename_i holder unsettled granted
      split
      · exact .inr ⟨unsettled, launch_moved provider budget w unsettled active⟩
      · exact .inl enqueued
    · rename_i bootstrap unsettled taken
      split
      · rename_i own
        subst own
        exact .inr ⟨unsettled, attend_moved provider budget w bootstrap unsettled active⟩
      · exact .inl enqueued
  · exact .inl ⟨rfl, rfl⟩

theorem poll_concludes {s : State} (w : σ) {caller : Nat} {task : Task} {outcome : Except String Nat}
    (settled : s.outcome = some outcome) (running : s.halted = none)
    (active : s.calls[caller]? = some ⟨task, .active⟩) :
    ∃ record phase, (poll provider budget s w caller).1.calls =
        (s.calls.modify caller fun call => { call with phase }) ∧
      Conclusion outcome task record (poll provider budget s w caller).1.halted phase := by
  obtain ⟨s', w', record, phase, -, plain, -, calls, conclusion⟩ :=
    conclude_observed provider w settled running active
  have concluded : poll provider budget s w caller = (s', w') := by
    simp only [poll, running, active, settled, plain]
  rw [concluded]
  exact ⟨record, phase, calls, conclusion⟩

end

theorem Conclusion.ended {outcome : Except String Nat} {task : Task} {record : List Execution}
    {phase : Phase} (conclusion : Conclusion outcome task record none phase) : phase ≠ .active := by
  cases conclusion <;> nofun

theorem countP_concluded {calls : List Call} {caller : Nat} {task : Task} {phase : Phase}
    (found : calls[caller]? = some ⟨task, .active⟩) (ended : phase ≠ .active) :
    (calls.modify caller fun call => { call with phase }).countP (·.phase = .active) <
      calls.countP (·.phase = .active) := by
  obtain ⟨before, after, split, changed⟩ := modify_split found phase
  rw [changed, split]
  simp [List.countP_append, ended]

section
variable {σ : Type} {provider : Provider σ} (budget : Duration)
  (returns : ∀ w engine code how, (provider.execute w engine code).1 ≠ .halt how)
include returns

theorem Going.poll {s : State} (going : Going s) (w : σ) (caller : Nat) :
    Going (poll provider budget s w caller).1 := by
  have running : (Runner.poll provider budget s w caller).1.halted = none :=
    (poll_halted returns s w caller).trans going.running
  obtain ⟨s', w', record, -, plain, polled⟩ := poll_observed provider budget s w caller
  have moved := poll_moved provider budget s w caller
  rw [plain] at running moved ⊢
  dsimp only at running moved ⊢
  -- While there is no outcome, no call is concluded.
  have unchanged : s'.outcome = none → s'.calls = s.calls := by
    intro unsettled
    cases polled with
    | waits calls outcome halted => exact calls
    | concludes found running settled after => exact nomatch unsettled.symm.trans after
  rcases moved with ⟨turn, outcome⟩ | ⟨unsettled, moved⟩
  · refine ⟨running, fun other => turn ▸ going.ungranted other, fun bootstrap taken => ?_⟩
    obtain ⟨unsettled, active⟩ := going.taken bootstrap (turn ▸ taken)
    exact ⟨outcome.trans unsettled, unchanged (outcome.trans unsettled) ▸ active⟩
  · cases moved with
    | ended turn outcome =>
      refine ⟨running, fun other granted => ?_, fun bootstrap taken => ?_⟩
      · cases turn.symm.trans granted
      · cases turn.symm.trans taken
    | waits turn own active outcome =>
      refine ⟨running, fun other granted => ?_, fun other taken => ?_⟩
      · cases turn.symm.trans granted
      · cases turn.symm.trans taken
        exact ⟨outcome, own ▸ unchanged outcome ▸ active⟩

theorem Going.poll_works {s : State} (going : Going s) (w : σ) {caller : Nat} {task : Task}
    (active : s.calls[caller]? = some ⟨task, .active⟩)
    (able : s.outcome ≠ none ∨ s.turn = .free ∨
      ∃ bootstrap, s.turn = .taken bootstrap ∧ bootstrap.caller = caller ∧
        bootstrap.deadline ≤ s.now) :
    (Runner.poll provider budget s w caller).1.work < s.work := by
  have running : (Runner.poll provider budget s w caller).1.halted = none :=
    (poll_halted returns s w caller).trans going.running
  cases settled : s.outcome with
  | some outcome =>
    obtain ⟨record, phase, calls, conclusion⟩ :=
      poll_concludes provider budget w settled going.running active
    rw [running] at conclusion
    have fewer := countP_concluded active conclusion.ended
    have same := poll_moved provider budget s w caller
    simp only [settled, reduceCtorEq, false_and, or_false] at same
    simp only [State.work, calls, same, settled, reduceCtorEq, false_and, if_false]
    omega
  | none =>
    obtain ⟨s', w', record, -, plain, polled⟩ := poll_observed provider budget s w caller
    rw [plain] at running ⊢
    dsimp only at running ⊢
    cases polled with
    | concludes found _ _ after calls conclusion =>
      cases active.symm.trans found
      rw [running] at conclusion
      have fewer := countP_concluded active conclusion.ended
      simp only [State.work, calls, after, settled, reduceCtorEq, false_and, if_false]
      omega
    | waits calls outcome halted =>
      rw [settled] at outcome
      rcases able with able | free | ⟨bootstrap, taken, rfl, due⟩
      · exact absurd settled able
      · have launched : Runner.poll provider budget s w caller =
            launch provider budget s w caller task := by
          simp only [Runner.poll, going.running, active, settled, free]
        have moved := launch_moved provider budget w settled active
        rw [← launched, plain] at moved
        cases moved with
        | ended turn ended => exact absurd outcome ended
        | waits turn own active unsettled =>
          dsimp only at turn
          simp [State.work, calls, outcome, settled, free, turn]
      · have attended : Runner.poll provider budget s w bootstrap.caller =
            attend provider budget s w bootstrap task := by
          simp only [Runner.poll, going.running, active, settled, taken, if_true]
        have ended := attend_due provider budget w task due
        rw [← attended, plain] at ended
        exact absurd outcome ended

theorem Going.works {s : State} (going : Going s) (w : σ) {call : Call} (member : call ∈ s.calls)
    (active : call.phase = .active) : ∃ span caller,
      (Runner.poll provider budget { s with now := s.now + span } w caller).1.work < s.work := by
  obtain ⟨caller, found⟩ := List.mem_iff_getElem?.mp member
  obtain ⟨task, phase⟩ := call
  cases active
  have later : ∀ span, Going { s with now := s.now + span } :=
    fun span => ⟨going.running, going.ungranted, going.taken⟩
  obtain ⟨turn, same⟩ : ∃ turn, s.turn = turn := ⟨_, rfl⟩
  cases turn with
  | free => exact ⟨⟨0⟩, caller, (later ⟨0⟩).poll_works budget returns w found (.inr (.inl same))⟩
  | granted holder => exact absurd same (going.ungranted holder)
  | taken bootstrap =>
    obtain ⟨-, task, found⟩ := going.taken bootstrap same
    refine ⟨bootstrap.deadline, bootstrap.caller, ?_⟩
    refine (later bootstrap.deadline).poll_works budget returns w found
      (.inr (.inr ⟨bootstrap, same, rfl, ?_⟩))
    exact Nat.le_add_left _ _

end

namespace Service

/-! ## Services that get on -/

inductive Action.Own : Action → Prop
  | receive : Own .receive
  | poll (caller : Nat) : Own (.runner (.poll caller))
  | advance (span : Duration) : Own (.runner (.advance span))

def Started (s : Service) : Prop := s.accepting = true ∨ s.closed = true ∧ s.inbox = []

def work (s : Service) : Nat :=
  2 * s.inbox.length + s.runner.work + if s.accepting then 1 else 0

section
variable {σ : Type} (provider : Provider σ) (budget : Duration)

structure Quiet (s : Service) (w : σ) : Prop where
  receive : s.receive = s
  poll : ∀ span caller,
    run provider budget (s, w) [.runner (.advance span), .runner (.poll caller)] =
      run provider budget (s, w) [.runner (.advance span)]

end

structure Done (s : Service) : Prop where
  inbox : s.inbox = []
  drained : s.accepting = true → s.closed = false
  ended : ∀ call ∈ s.runner.calls, call.phase ≠ .active

section
variable {s : Service}

theorem receive_works (going : Going s.runner) (started : s.Started)
    (undone : s.inbox ≠ [] ∨ s.accepting = true ∧ s.closed = true) : s.receive.work < s.work := by
  rcases started with accepting | ⟨closed, empty⟩
  · rw [receive]
    cases inbox : s.inbox with
    | cons request rest =>
      simp only [accepting, going.running, work, State.work, State.start, inbox, if_true,
        List.length_cons, List.countP_append, List.countP_singleton, decide_true]
      omega
    | nil =>
      have closed : s.closed = true := by
        rcases undone with waiting | ⟨-, closed⟩
        · exact absurd inbox waiting
        · exact closed
      simp [accepting, going.running, closed, work, inbox]
  · rcases undone with waiting | ⟨accepting, -⟩
    · exact absurd empty waiting
    · simp [receive, accepting, going.running, closed, work, empty]

variable {σ : Type} {provider : Provider σ} {budget : Duration} {w : σ}

theorem poll_still {caller : Nat}
    (still : Runner.poll provider budget s.runner w caller = (s.runner, w)) :
    s.poll provider budget w caller = (s, w) := by
  simp only [Service.poll, still]
  cases answer? s.runner caller <;> simp

theorem Done.quiet (done : Done s) : Quiet provider budget s w := by
  constructor
  · rw [receive]
    split
    · rename_i waiting
      cases waiting.symm.trans done.inbox
    · rename_i accepting running empty
      rw [if_neg (by simp [done.drained accepting])]
    · rfl
  · intro span caller
    refine poll_still ?_
    unfold Runner.poll
    split
    · rename_i task running active
      exact absurd rfl (done.ended _ (List.mem_of_getElem? active))
    · rfl

variable (budget) (returns : ∀ w engine code how, (provider.execute w engine code).1 ≠ .halt how)
include returns

theorem works (going : Going s.runner) (started : s.Started) (w : σ) :
    Done s ∨ s.receive.work < s.work ∨ ∃ span caller,
      (run provider budget (s, w) [.runner (.advance span), .runner (.poll caller)]).1.work <
        s.work := by
  by_cases undone : s.inbox ≠ [] ∨ s.accepting = true ∧ s.closed = true
  · exact .inr (.inl (receive_works going started undone))
  · obtain ⟨empty, drained⟩ := not_or.mp undone
    by_cases active : ∃ call ∈ s.runner.calls, call.phase = .active
    · obtain ⟨call, member, active⟩ := active
      obtain ⟨span, caller, works⟩ := going.works budget returns w member active
      refine .inr (.inr ⟨span, caller, ?_⟩)
      exact Nat.add_lt_add_right (Nat.add_lt_add_left works _) _
    · refine .inl ⟨Classical.not_not.mp empty, fun accepting => ?_, fun call member ended => ?_⟩
      · exact eq_false_of_ne_true fun closed => drained ⟨accepting, closed⟩
      · exact active ⟨call, member, ended⟩

variable {budget} in
theorem Quiet.done (quiet : Quiet provider budget s w) (going : Going s.runner)
    (started : s.Started) : Done s := by
  rcases works budget returns going started w with done | works | ⟨span, caller, works⟩
  · exact done
  · exact absurd works (by rw [quiet.receive]; exact Nat.lt_irrefl _)
  · rw [quiet.poll span caller] at works
    exact absurd works (Nat.lt_irrefl s.work)

end

/-! ## Over a run -/

def Action.Keeps (action : Action) : Prop := ∀ caller, action ≠ .runner (.cancel caller)

theorem Action.Own.keeps {action : Action} (own : action.Own) : action.Keeps := by
  rintro caller rfl
  cases own

section
variable {s : Service}

theorem Going.start {s : State} (going : Going s) (task : Task) : Going (s.start task).2 := by
  refine ⟨going.running, going.ungranted, fun bootstrap taken => ?_⟩
  obtain ⟨unsettled, task', active⟩ := going.taken bootstrap taken
  have within := (List.getElem?_eq_some_iff.mp active).choose
  exact ⟨unsettled, task', (List.getElem?_append_left within).trans active⟩

theorem Going.deliver {s : State} (going : Going s) (slot : Nat) (mail : Mail) :
    Going (Runner.deliver s slot mail).2 := by
  rw [Runner.deliver]
  split
  · rename_i bootstrap taken
    split
    · refine ⟨going.running, by simp, fun other same => ?_⟩
      cases same
      exact going.taken bootstrap taken
    · exact going
  · exact going

theorem Started.receive (started : s.Started) : s.receive.Started := by
  rw [Service.receive]
  split
  · rename_i request rest accepting running inbox
    exact .inl accepting
  · rename_i accepting running empty
    split
    · exact .inr ⟨‹_›, empty⟩
    · exact started
  · exact started

section
variable {σ : Type} (provider : Provider σ) (budget : Duration)

theorem Started.step (started : s.Started) (w : σ) (action : Action) :
    (step provider budget (s, w) action).1.Started := by
  cases action with
  | start => exact .inl rfl
  | post request =>
    simp only [Service.step, post]
    split
    · exact started
    · exact started.imp_right fun closing => absurd closing.1 ‹_›
  | close => exact started.imp_right fun closing => ⟨rfl, closing.2⟩
  | stopListening => exact started
  | receive => exact started.receive
  | runner action => cases action <;> exact started

theorem Started.run (started : s.Started) (w : σ) (actions : List Action) :
    (run provider budget (s, w) actions).1.Started := by
  induction actions generalizing s w with
  | nil => exact started
  | cons action rest ih => exact ih (started.step provider budget w action) _

theorem started_of_start (s : Service) (w : σ) {actions : List Action} (starts : .start ∈ actions) :
    (run provider budget (s, w) actions).1.Started := by
  obtain ⟨before, after, rfl⟩ := List.append_of_mem starts
  rw [run, List.foldl_append, List.foldl_cons]
  exact Started.run provider budget (.inl rfl) _ after

end

variable {σ : Type} {provider : Provider σ} (budget : Duration)
  (returns : ∀ w engine code how, (provider.execute w engine code).1 ≠ .halt how)
include returns

theorem Going.step (going : Going s.runner) (w : σ) {action : Action} (keeps : action.Keeps) :
    Going (step provider budget (s, w) action).1.runner := by
  cases action with
  | start => exact Going.start going .warmUp
  | post request =>
    simp only [Service.step, post]
    split <;> exact going
  | close | stopListening => exact going
  | receive =>
    simp only [Service.step, receive]
    split
    · exact Going.start going _
    · split <;> exact going
    · exact going
  | runner action =>
    cases action with
    | start task => exact Going.start going task
    | poll caller => exact going.poll budget returns w caller
    | cancel caller => exact absurd rfl (keeps caller)
    | deliver slot mail => exact Going.deliver going slot mail
    | advance span => exact ⟨going.running, going.ungranted, going.taken⟩

theorem Going.run (going : Going s.runner) (w : σ) {actions : List Action}
    (keeps : ∀ action ∈ actions, action.Keeps) :
    Going (run provider budget (s, w) actions).1.runner := by
  induction actions generalizing s w with
  | nil => exact going
  | cons action rest ih =>
    have stepped := Going.step budget returns going w (keeps action List.mem_cons_self)
    exact ih stepped _ fun other later => keeps other (List.mem_cons_of_mem _ later)

theorem settles (going : Going s.runner) (started : s.Started) (w : σ) :
    ∃ later, (∀ action ∈ later, action.Own) ∧ Done (run provider budget (s, w) later).1 := by
  generalize bound : s.work = n
  induction n using Nat.strongRecOn generalizing s w with
  | _ n ih =>
  have onward : ∀ actions, (∀ action ∈ actions, action.Own) →
      (run provider budget (s, w) actions).1.work < s.work →
      ∃ later, (∀ action ∈ later, action.Own) ∧ Done (run provider budget (s, w) later).1 := by
    intro actions own works
    have going' := Going.run budget returns going w fun action member =>
      (own action member).keeps
    obtain ⟨later, own', done⟩ := ih _ (bound ▸ works) going' (started.run provider budget w actions)
      (run provider budget (s, w) actions).2 rfl
    refine ⟨actions ++ later, fun action member => ?_, ?_⟩
    · exact (List.mem_append.mp member).elim (own action) (own' action)
    · rwa [run, List.foldl_append]
  rcases works budget returns going started w with done | works | ⟨span, caller, works⟩
  · exact ⟨[], nofun, done⟩
  · refine onward [.receive] (fun action member => ?_) works
    obtain rfl := List.mem_singleton.mp member
    exact .receive
  · refine onward _ (fun action member => ?_) works
    rcases List.mem_cons.mp member with rfl | member
    · exact .advance span
    · obtain rfl := List.mem_singleton.mp member
      exact .poll caller

end

end Service

end Sandbox.Runner

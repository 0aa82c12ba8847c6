import Sandbox.Proofs.Runner.Serving
import Sandbox.Proofs.Runner.Standing

namespace Sandbox.Runner

open Engine

section
variable {σ : Type} (provider : Provider σ) (budget : Duration)

/-! ## The record of starts -/

theorem map_launch_close (caller : Nat) (now : Duration) (before after : Option (Except String Nat))
    (attempts : List Attempt) :
    (close caller now before after attempts).map Attempt.launch = attempts.map Attempt.launch := by
  unfold close
  split
  · simp [Function.comp_def]
  · rfl

theorem step_noted (s : State) (w : σ) (attempts : List Attempt) (action : Action) :
    step (noted provider) budget (s, w, attempts.map Attempt.launch) action =
      ((step provider budget (s, w) action).1, (step provider budget (s, w) action).2,
        (recount provider budget attempts (s, w) action).map Attempt.launch) := by
  cases action with
  | poll caller =>
    obtain ⟨s', w', launches, eq, plain, -⟩ := poll_stirs provider budget s w caller
    have carried := (noted_carries provider (attempts.map Attempt.launch)).poll budget s (w, []) caller
    rw [List.append_nil, eq] at carried
    simp only [step, recount, eq, plain, carried, map_launch_close, List.map_append, List.map_map]
    simp [Function.comp_def, Attempt.begin]
  | cancel caller => simp [step, recount, Function.comp_def]
  | deliver slot mail => simp [step, recount, Function.comp_def]
  | _ => rfl

theorem run_noted (s : State) (w : σ) (attempts : List Attempt) (actions : List Action) :
    run (noted provider) budget (s, w, attempts.map Attempt.launch) actions =
      ((run provider budget (s, w) actions).1, (run provider budget (s, w) actions).2,
        (actions.foldl (tell provider budget) ((s, w), attempts)).2.map Attempt.launch) := by
  induction actions generalizing s w attempts with
  | nil => rfl
  | cons action rest ih =>
    rw [run, List.foldl_cons, step_noted]
    exact ih _ _ _

theorem starts_eq (w : σ) (actions : List Action) :
    (run (noted provider) budget ({}, w, []) actions).2.2 =
      (attempts provider budget w actions).map Attempt.launch := by
  have noted := run_noted provider budget {} w [] actions
  rw [List.map_nil] at noted
  rw [noted, attempts]

theorem starts_settled {s : State} {attempts : List Attempt} (settled : s.outcome ≠ none) (w : σ)
    (later : List Action) :
    (later.foldl (tell provider budget) ((s, w), attempts)).2.map Attempt.launch =
      attempts.map Attempt.launch := by
  induction later generalizing s w attempts with
  | nil => rfl
  | cons action rest ih =>
    have idle : (recount provider budget attempts (s, w) action).map Attempt.launch =
        attempts.map Attempt.launch := by
      cases action with
      | poll caller =>
        obtain ⟨s', w', launches, eq, -, -, -, stirs⟩ := poll_stirs provider budget s w caller
        simp only [recount, eq, map_launch_close]
        cases stirs with
        | launches active unsettled => exact absurd unsettled settled
        | fails active unsettled => exact absurd unsettled settled
        | _ => rw [List.map_nil, List.append_nil]
      | cancel caller => simp [recount, Function.comp_def]
      | deliver slot mail => simp [recount, Function.comp_def]
      | _ => rfl
    obtain ⟨log, change⟩ := step_change provider budget s w action
    obtain ⟨outcome, same⟩ := Option.ne_none_iff_exists'.mp settled
    have kept : (step provider budget (s, w) action).1.outcome ≠ none := by
      rw [change.outcome same]
      exact Option.some_ne_none _
    rw [List.foldl_cons, ← idle]
    exact ih kept _

/-! ## Nobody is left behind -/

def Still (s : State) (w : σ) : Prop := ∀ caller, poll provider budget s w caller = (s, w)

variable {provider budget}

theorem Told.attended {s : State} {attempts : List Attempt} (told : Told budget s attempts) {w : σ}
    (still : Still provider budget s w) (unsettled : s.outcome = none) {caller : Nat}
    (active : s.Active caller) :
    ∃ a, attempts.filter Attempt.ongoing = [a] ∧ s.Active a.caller := by
  have running := told.line.running unsettled
  have busy : ∀ {caller : Nat}, s.Active caller → ¬ (s.turn = .free ∨ s.turn = .granted caller) := by
    intro caller active idle
    have launched := poll_launches provider budget unsettled running active idle w
    rw [still caller] at launched
    exact absurd launched (Nat.ne_of_lt (Nat.lt_succ_self _))
  obtain ⟨turn, same⟩ : ∃ turn, s.turn = turn := ⟨_, rfl⟩
  cases turn with
  | free => exact absurd (.inl same) (busy active)
  | granted holder =>
    exact absurd (.inr same) (busy (told.line.holder holder (by simp [holdsTurn, same])))
  | taken b =>
    obtain ⟨earlier, a, rfl, given, -, runs⟩ := told.standing.of_taken told.line same
    refine ⟨a, ?_, runs.caller ▸ told.line.holder b.caller (by simp [holdsTurn, same])⟩
    rw [List.filter_append, List.filter_eq_nil_iff.mpr, List.nil_append]
    · simp [runs.ongoing]
    · intro other early
      simp [Attempt.not_ongoing_of_abandoned (given other early)]

end

theorem Standing.unsettled_of_nil {budget : Duration} {s : State}
    (standing : Standing budget s []) : s.outcome = none := by
  generalize empty : ([] : List Attempt) = attempts at standing
  cases standing with
  | vacant given unsettled => exact unsettled
  | ongoing => simp at empty
  | settled => simp at empty

theorem Standing.length_le {budget : Duration} {s : State} {attempts : List Attempt}
    (standing : Standing budget s attempts) :
    (attempts.filter Attempt.ongoing).length ≤ 1 ∧
      attempts.length ≤ 1 + (attempts.filter Attempt.abandoned).length := by
  have last : ∀ {earlier : List Attempt}, (∀ a ∈ earlier, a.abandoned = true) → ∀ a,
      ((earlier ++ [a]).filter Attempt.ongoing).length ≤ 1 ∧
      (earlier ++ [a]).length ≤ 1 + ((earlier ++ [a]).filter Attempt.abandoned).length := by
    intro earlier given a
    have closed : earlier.filter Attempt.ongoing = [] := by
      refine List.filter_eq_nil_iff.mpr fun other early => ?_
      simp [Attempt.not_ongoing_of_abandoned (given other early)]
    rw [List.filter_append, closed, List.filter_append, List.filter_eq_self.mpr given]
    refine ⟨List.length_filter_le _ [a], ?_⟩
    simp only [List.length_append, List.length_singleton]
    omega
  cases standing with
  | vacant given =>
    rw [List.filter_eq_self.mpr given, List.filter_eq_nil_iff.mpr]
    · simp
    · intro a member
      simp [Attempt.not_ongoing_of_abandoned (given a member)]
  | ongoing given => exact last given _
  | settled given => exact last given _

structure Successive {σ : Type} (provider : Provider σ) (budget : Duration) (w : σ)
    (actions : List Action) : Prop where
  starts : (run (noted provider) budget ({}, w, []) actions).2.2 =
    (attempts provider budget w actions).map Attempt.launch
  alone : ((attempts provider budget w actions).filter Attempt.ongoing).length ≤ 1
  repeated : (attempts provider budget w actions).length ≤
    1 + ((attempts provider budget w actions).filter Attempt.abandoned).length
  abandoners : (((attempts provider budget w actions).filter Attempt.abandoned).map
      Attempt.caller).Nodup ∧
    ∀ a ∈ attempts provider budget w actions, a.abandoned = true → ∃ task,
      (run provider budget ({}, w) actions).1.calls[a.caller]? = some ⟨task, .cancelled⟩
  final : (run provider budget ({}, w) actions).1.status ≠ .initializing → ∀ later,
    (run (noted provider) budget ({}, w, []) (actions ++ later)).2.2 =
      (run (noted provider) budget ({}, w, []) actions).2.2
  attended : Still provider budget (run provider budget ({}, w) actions).1
      (run provider budget ({}, w) actions).2 →
    (run provider budget ({}, w) actions).1.status = .initializing → ∀ caller,
    (run provider budget ({}, w) actions).1.Active caller →
    ∃ a, (attempts provider budget w actions).filter Attempt.ongoing = [a] ∧
      (run provider budget ({}, w) actions).1.Active a.caller

theorem successive {σ : Type} (provider : Provider σ) (budget : Duration) (w : σ)
    (actions : List Action) : Successive provider budget w actions := by
  have told := told_run provider budget w actions
  obtain ⟨alone, repeated⟩ := told.standing.length_le
  refine ⟨starts_eq provider budget w actions, alone, repeated, ⟨told.apart, told.cancelled⟩,
    fun settled later => ?_, fun still initializing caller active => ?_⟩
  · rw [starts_eq, starts_eq, attempts_append]
    refine starts_settled provider budget (fun unsettled => settled ?_) _ later
    exact State.status_eq_initializing.mpr unsettled
  · exact told.attended still (State.status_eq_initializing.mp initializing) active

/-! ## Starts of a service -/

namespace Service

section
variable {σ : Type} (provider : Provider σ) (budget : Duration)

def moves (s : Service) : Action → List Runner.Action
  | .start => [.start .warmUp]
  | .receive => match s.accepting, s.runner.halted, s.inbox with
    | true, none, request :: _ => [.start (.answer request)]
    | _, _, _ => []
  | .runner action => [action]
  | _ => []

theorem step_moves (s : Service) (w : σ) (action : Action) :
    (step provider budget (s, w) action).map Service.runner id =
      Runner.run provider budget (s.runner, w) (s.moves action) := by
  cases action with
  | post request =>
    rw [step, post]
    split <;> rfl
  | receive =>
    obtain ⟨⟨now, outcome, turn, queue, slots, calls, halted⟩, inbox, closed, accepting, _⟩ := s
    cases accepting <;> cases halted <;> cases inbox <;> cases closed <;> rfl
  | runner action => cases action <;> rfl
  | _ => rfl

theorem run_moves (s : Service) (w : σ) (actions : List Action) : ∃ moves : List Runner.Action,
    (run provider budget (s, w) actions).map Service.runner id =
      Runner.run provider budget (s.runner, w) moves := by
  induction actions generalizing s w with
  | nil => exact ⟨[], rfl⟩
  | cons action rest ih =>
    obtain ⟨later, moved⟩ := ih (step provider budget (s, w) action).1
      (step provider budget (s, w) action).2
    refine ⟨s.moves action ++ later, ?_⟩
    rw [run, List.foldl_cons, Runner.run, List.foldl_append]
    refine moved.trans (congrArg (Runner.run provider budget · later) ?_)
    exact step_moves provider budget s w action

theorem called_of_start (w : σ) {actions : List Action} (starts : .start ∈ actions) :
    ∃ (caller : Nat) (phase : Phase), (run provider budget ({}, w) actions).1.runner.calls[caller]? =
      some ⟨.warmUp, phase⟩ := by
  obtain ⟨before, after, rfl⟩ := List.append_of_mem starts
  let s := (run provider budget ({}, w) before).1
  let w' := (run provider budget ({}, w) before).2
  have fresh : s.start.runner.calls[s.runner.calls.length]? = some ⟨.warmUp, .active⟩ :=
    List.getElem?_concat_length
  obtain ⟨extended, -⟩ := run_later provider budget s.start w' after
  obtain ⟨phase, found, -⟩ := extended _ _ _ fresh
  refine ⟨s.runner.calls.length, phase, ?_⟩
  rw [run, List.foldl_append, List.foldl_cons]
  exact found

theorem told_run (w : σ) (actions : List Action) : ∃ attempts,
    Told budget (run provider budget ({}, w) actions).1.runner attempts ∧
      (run (noted provider) budget ({}, w, []) actions).2.2 = attempts.map Attempt.launch := by
  obtain ⟨moves, moved⟩ := run_moves (noted provider) budget {} (w, []) actions
  have starts := run_noted provider budget {} w [] moves
  rw [List.map_nil] at starts
  rw [starts] at moved
  have forgotten := (noted_forget provider).run budget {} (w, []) actions
  have runner : (run provider budget ({}, w) actions).1.runner =
      (Runner.run provider budget ({}, w) moves).1 :=
    (congrArg (fun c => c.1.runner) forgotten).trans (congrArg Prod.fst moved)
  exact ⟨_, runner ▸ Runner.told_run provider budget w moves, congrArg (fun c => c.2.2) moved⟩

theorem starts_once (w : σ) {actions : List Action} (starts : .start ∈ actions)
    (keeps : ∀ action ∈ actions, action.Keeps)
    (still : Still provider budget (run provider budget ({}, w) actions).1.runner
      (run provider budget ({}, w) actions).2) :
    (run (noted provider) budget ({}, w, []) actions).2.2.length = 1 := by
  obtain ⟨attempts, told, record⟩ := told_run provider budget w actions
  obtain ⟨caller, phase, called⟩ := called_of_start provider budget w starts
  have serves := Serves.begin.run provider budget w keeps
  obtain ⟨s, w', log, -, plain, kept⟩ := Kept.begin.run provider budget w actions
  rw [plain] at still told called serves
  rw [record, List.length_map]
  obtain ⟨-, repeated⟩ := told.standing.length_le
  have given : attempts.filter Attempt.abandoned = [] := by
    refine List.filter_eq_nil_iff.mpr fun a member abandoned => ?_
    obtain ⟨task, cancelled⟩ := told.cancelled a member abandoned
    cases serves.sound _ (List.mem_of_getElem? cancelled)
  have some : attempts ≠ [] := by
    rintro rfl
    have unsettled := told.standing.unsettled_of_nil
    obtain ⟨-, -, unfinished⟩ :=
      kept.consistent.waits (State.status_eq_initializing.mpr unsettled)
    have active : s.runner.Active caller := by
      cases serves.sound _ (List.mem_of_getElem? called) with
      | active => exact ⟨_, called⟩
      | warmed status => exact absurd called (unfinished _ _ _)
    obtain ⟨a, ongoing, -⟩ := told.attended still unsettled active
    cases ongoing
  have positive := List.length_pos_iff.mpr some
  rw [given, List.length_nil] at repeated
  omega

end

end Service

/-- Whatever calls are made and given up, and however slots and the clock behave: starts are
attempts that follow each other, and nobody is left behind. A service whose calls are all carried
out starts its engine once. -/
theorem starts_in_turn {σ : Type} (provider : Provider σ) (budget : Duration) (w : σ) :
    (∀ actions : List Action, Successive provider budget w actions) ∧
    ∀ actions : List Service.Action, .start ∈ actions →
      (∀ caller, .runner (.cancel caller) ∉ actions) →
      Still provider budget (Service.run provider budget ({}, w) actions).1.runner
        (Service.run provider budget ({}, w) actions).2 →
      (Service.run (noted provider) budget ({}, w, []) actions).2.2.length = 1 := by
  refine ⟨successive provider budget w, fun actions starts keeps still => ?_⟩
  refine Service.starts_once provider budget w starts ?_ still
  rintro action member caller rfl
  exact keeps caller member

def handover : List Action :=
  [.start .warmUp, .start (.answer ⟨⟨"a"⟩, .ping⟩), .start .warmUp, .poll 0, .poll 1, .poll 2,
    .cancel 0, .poll 1]

theorem starts_in_turn_handover :
    ((run (noted Service.slow) ⟨1⟩ ({}, (), []) handover).2.2.map Launch.slot = [0, 1] ∧
      ∃ a, (attempts Service.slow ⟨1⟩ () handover).filter Attempt.ongoing = [a]) ∧
    (Service.run (noted Service.slow) ⟨1⟩ ({}, (), []) [.start, .runner (.poll 0)]).2.2.length = 1 := by
  obtain ⟨successive, once⟩ := starts_in_turn Service.slow ⟨1⟩ ()
  refine ⟨⟨?_, ?_⟩, ?_⟩
  · rw [(successive handover).starts]
    rfl
  · have still : Still Service.slow ⟨1⟩ (run Service.slow ⟨1⟩ ({}, ()) handover).1 () := by
      rintro (_ | _ | _ | caller) <;> rfl
    obtain ⟨a, going, -⟩ := (successive handover).attended still rfl 2 ⟨.warmUp, rfl⟩
    exact ⟨a, going⟩
  · refine once _ (by simp) (by simp) ?_
    rintro (_ | caller) <;> rfl

end Sandbox.Runner

import Sandbox.Proofs.Runner.Outcome
import Sandbox.Proofs.Runner.Progress

/-!
Attempts to start the engine: which call made them, what came through their slots, and how they
ended. They come one after another, each after the one before it was given up.
-/

namespace Sandbox.Runner

open Engine

structure Launch where
  slot : Nat
  now : Duration
  start : Start

def noted {σ : Type} (provider : Provider σ) : Provider (σ × List Launch) where
  start := fun (w, record) now slot =>
    let (start, w) := provider.start w now slot
    (start, w, record ++ [⟨slot, now, start⟩])
  execute := fun (w, record) engine code =>
    let (verdict, w) := provider.execute w engine code
    (verdict, w, record)

/-- A use of a slot after its start: whether its user was told that it was heard, and whether the
attempt went on then. -/
structure Letter where
  now : Duration
  mail : Mail
  heard : Bool
  awaited : Bool

inductive Ending
  | abandoned
  | settled (now : Duration) (outcome : Except String Nat)

structure Attempt where
  caller : Nat
  launch : Launch
  letters : List Letter := []
  ending : Option Ending := none

namespace Attempt

def begin (caller : Nat) (launch : Launch) : Attempt := { caller, launch }

def ongoing (a : Attempt) : Bool := a.ending.isNone

def abandoned (a : Attempt) : Bool :=
  match a.ending with
  | some .abandoned => true
  | _ => false

def finish (caller : Nat) (ending : Ending) (a : Attempt) : Attempt :=
  if a.caller = caller ∧ a.ongoing then { a with ending := some ending } else a

def take (slot : Nat) (now : Duration) (mail : Mail) (heard : Bool) (a : Attempt) : Attempt :=
  if a.launch.slot = slot then
    { a with letters := a.letters ++ [⟨now, mail, heard, a.ongoing⟩] }
  else a

end Attempt

def close (caller : Nat) (now : Duration) (before after : Option (Except String Nat))
    (attempts : List Attempt) : List Attempt :=
  match before, after with
  | none, some outcome => attempts.map (Attempt.finish caller (.settled now outcome))
  | _, _ => attempts

section
variable {σ : Type} (provider : Provider σ) (budget : Duration)

/-- The attempts after an action. Who gives up a call gives up its attempt. -/
def recount (attempts : List Attempt) : State × σ → Action → List Attempt
  | (s, w), .poll caller =>
    let (s', _, launches) := poll (noted provider) budget s (w, []) caller
    close caller s.now s.outcome s'.outcome
      (attempts ++ launches.map (Attempt.begin caller))
  | _, .cancel caller => attempts.map (Attempt.finish caller .abandoned)
  | (s, _), .deliver slot mail => attempts.map (Attempt.take slot s.now mail (deliver s slot mail).1)
  | _, _ => attempts

def tell : (State × σ) × List Attempt → Action → (State × σ) × List Attempt
  | (c, attempts), action => (step provider budget c action, recount provider budget attempts c action)

def attempts (w : σ) (actions : List Action) : List Attempt :=
  (actions.foldl (tell provider budget) (({}, w), [])).2

theorem noted_forget : Carries Prod.fst (noted provider) provider :=
  ⟨fun _ _ _ => rfl, fun _ _ _ => rfl⟩

theorem noted_carries (before : List Launch) :
    Carries (fun seen : σ × List Launch => (seen.1, before ++ seen.2)) (noted provider)
      (noted provider) := by
  refine ⟨fun w now slot => ?_, fun w engine code => rfl⟩
  simp only [noted, List.append_assoc]
  rfl

theorem fst_foldl_tell (start : (State × σ) × List Attempt) (actions : List Action) :
    (actions.foldl (tell provider budget) start).1 = run provider budget start.1 actions := by
  induction actions generalizing start with
  | nil => rfl
  | cons action rest ih => exact ih _

theorem attempts_append (w : σ) (actions later : List Action) :
    attempts provider budget w (actions ++ later) =
      (later.foldl (tell provider budget)
        (run provider budget ({}, w) actions, attempts provider budget w actions)).2 := by
  rw [attempts, List.foldl_append, attempts, ← fst_foldl_tell provider budget (({}, w), [])]

end

def State.Active (s : State) (caller : Nat) : Prop :=
  ∃ task, s.calls[caller]? = some ⟨task, .active⟩

def Bootstrap.verdict? (budget now : Duration) (b : Bootstrap) : Option (Except String Nat) :=
  match b.mail with
  | some mail => some (mailOutcome mail)
  | none => if b.deadline ≤ now then some (.error (timeoutMessage budget)) else none

inductive Looked (budget : Duration) (s : State) (b : Bootstrap) (s' : State) : Prop
  | waits (verdict : b.verdict? budget s.now = none) (outcome : s'.outcome = none)
    (turn : s'.turn = .taken b) (queue : s'.queue = s.queue)
  | ends {outcome : Except String Nat} (verdict : b.verdict? budget s.now = some outcome)
    (after : s'.outcome = some outcome) (turn : s'.turn = .free) (queue : s'.queue = [])

inductive Stirs (budget : Duration) (s : State) (caller : Nat) : List Launch → State → Prop
  | aside {s' : State} (outcome : s'.outcome = s.outcome) (turn : s'.turn = s.turn)
    (queue : s'.queue = s.queue) : Stirs budget s caller [] s'
  | queues {s' : State} (active : s.Active caller) (unsettled : s.outcome = none)
    (held : s.turn ≠ .free) (fresh : caller ∉ s.queue) (outcome : s'.outcome = none)
    (turn : s'.turn = s.turn) (queue : s'.queue = s.queue ++ [caller]) : Stirs budget s caller [] s'
  | looks {s' : State} {b : Bootstrap} (active : s.Active caller) (unsettled : s.outcome = none)
    (taken : s.turn = .taken b) (own : b.caller = caller) (looked : Looked budget s b s') :
    Stirs budget s caller [] s'
  | launches {s' : State} {start : Start} (active : s.Active caller) (unsettled : s.outcome = none)
    (idle : s.turn = .free ∨ s.turn = .granted caller) (started : start.result = .ok ())
    (looked : Looked budget s ⟨caller, s.slots, s.now + budget, start.mail⟩ s') :
    Stirs budget s caller [⟨s.slots, s.now, start⟩] s'
  | fails {s' : State} {start : Start} {message : String} (active : s.Active caller)
    (unsettled : s.outcome = none) (idle : s.turn = .free ∨ s.turn = .granted caller)
    (refused : start.result = .error message) (after : s'.outcome = some (.error message))
    (turn : s'.turn = .free) (queue : s'.queue = []) :
    Stirs budget s caller [⟨s.slots, s.now, start⟩] s'

section
variable {σ : Type} (provider : Provider σ) (budget : Duration)

theorem conclude_noted (s : State) (w : σ) (launches : List Launch) (caller : Nat) (task : Task)
    (outcome : Except String Nat) :
    conclude (noted provider) s (w, launches) caller task outcome =
      (conclude provider s w caller task outcome).map id (·, launches) := by
  rcases task with _ | ⟨id, _ | code⟩ <;> rcases outcome with message | engine <;> try rfl
  rcases executed : provider.execute w engine code with ⟨_ | _ | _ | _, w'⟩ <;>
    simp only [conclude, noted, executed, responseKind?] <;> rfl

theorem attend_noted (s : State) (w : σ) (launches : List Launch) (b : Bootstrap) (task : Task) :
    attend (noted provider) budget s (w, launches) b task =
      (attend provider budget s w b task).map id (·, launches) := by
  unfold attend endBootstrap
  split
  · exact conclude_noted ..
  · split
    · exact conclude_noted ..
    · rfl

theorem endBootstrap_frame (s : State) (w : σ) (caller : Nat) (task : Task)
    (outcome : Except String Nat) :
    ∃ calls halted, (endBootstrap provider s w caller task outcome).1 =
      { s with outcome := some outcome, turn := .free, queue := [], calls, halted } := by
  obtain ⟨calls, halted, eq⟩ := conclude_frame provider
    { s with outcome := some outcome, turn := .free, queue := [] } w caller task outcome
  exact ⟨calls, halted, by rw [endBootstrap, eq]⟩

theorem attend_looked {s : State} (unsettled : s.outcome = none) (w : σ) (b : Bootstrap)
    (task : Task) :
    Looked budget s b (attend provider budget s w b task).1 ∧
      (attend provider budget s w b task).1.now = s.now ∧
      (attend provider budget s w b task).1.slots = s.slots := by
  unfold attend
  split
  · rename_i mail arrived
    obtain ⟨calls, halted, eq⟩ := endBootstrap_frame provider s w b.caller task (mailOutcome mail)
    rw [eq]
    exact ⟨.ends (by rw [Bootstrap.verdict?, arrived]) rfl rfl rfl, rfl, rfl⟩
  · rename_i empty
    split
    · rename_i due
      obtain ⟨calls, halted, eq⟩ :=
        endBootstrap_frame provider s w b.caller task (.error (timeoutMessage budget))
      rw [eq]
      exact ⟨.ends (by rw [Bootstrap.verdict?, empty, if_pos due]) rfl rfl rfl, rfl, rfl⟩
    · rename_i early
      exact ⟨.waits (by rw [Bootstrap.verdict?, empty, if_neg early]) unsettled rfl rfl, rfl, rfl⟩

theorem launch_stirs {s : State} (unsettled : s.outcome = none) {caller : Nat} {task : Task}
    (active : s.calls[caller]? = some ⟨task, .active⟩)
    (idle : s.turn = .free ∨ s.turn = .granted caller) (w : σ) :
    ∃ s' w' begun, launch (noted provider) budget s (w, []) caller task = (s', w', [begun]) ∧
      launch provider budget s w caller task = (s', w') ∧ s'.now = s.now ∧
      s'.slots = s.slots + 1 ∧ Stirs budget s caller [begun] s' := by
  rcases started : provider.start w s.now s.slots with ⟨start, w₁⟩
  have starts : (noted provider).start (w, []) s.now s.slots =
      (start, w₁, [⟨s.slots, s.now, start⟩]) := by
    simp only [noted, started, List.nil_append]
  simp only [launch, starts, started]
  split
  · rename_i message refused
    obtain ⟨calls, halted, eq⟩ := endBootstrap_frame provider { s with slots := s.slots + 1 } w₁
      caller task (.error message)
    refine ⟨_, _, _, conclude_noted .., rfl, ?_⟩
    change (endBootstrap provider _ w₁ caller task (.error message)).1.now = s.now ∧
      (endBootstrap provider _ w₁ caller task (.error message)).1.slots = s.slots + 1 ∧
      Stirs budget s caller _ (endBootstrap provider _ w₁ caller task (.error message)).1
    rw [eq]
    exact ⟨rfl, rfl, .fails ⟨task, active⟩ unsettled idle refused rfl rfl rfl⟩
  · rename_i went
    refine ⟨_, _, _, attend_noted .., rfl, ?_⟩
    obtain ⟨looked, now, slots⟩ := attend_looked provider budget
      (s := { s with slots := s.slots + 1 }) unsettled w₁
      ⟨caller, s.slots, s.now + budget, start.mail⟩ task
    refine ⟨now, slots, .launches ⟨task, active⟩ unsettled idle went ?_⟩
    cases looked with
    | waits verdict outcome turn queue => exact .waits verdict outcome turn queue
    | ends verdict after turn queue => exact .ends verdict after turn queue

theorem enqueue_stirs {s : State} (unsettled : s.outcome = none) {caller : Nat}
    (active : s.Active caller) (held : s.turn ≠ .free) :
    (enqueue s caller).now = s.now ∧ (enqueue s caller).slots = s.slots ∧
      Stirs budget s caller [] (enqueue s caller) := by
  rw [enqueue]
  split
  · exact ⟨rfl, rfl, .aside rfl rfl rfl⟩
  · exact ⟨rfl, rfl, .queues active unsettled held ‹_› unsettled rfl rfl⟩

theorem poll_stirs (s : State) (w : σ) (caller : Nat) :
    ∃ s' w' launches, poll (noted provider) budget s (w, []) caller = (s', w', launches) ∧
      poll provider budget s w caller = (s', w') ∧ s'.now = s.now ∧
      s'.slots = s.slots + launches.length ∧ Stirs budget s caller launches s' := by
  unfold poll
  split
  · rename_i task running active
    split
    · rename_i outcome settled
      obtain ⟨calls, halted, eq⟩ := conclude_frame provider s w caller task outcome
      refine ⟨_, _, _, conclude_noted .., rfl, ?_⟩
      change (conclude provider s w caller task outcome).1.now = s.now ∧
        (conclude provider s w caller task outcome).1.slots = s.slots ∧
        Stirs budget s caller [] (conclude provider s w caller task outcome).1
      rw [eq]
      exact ⟨rfl, rfl, .aside rfl rfl rfl⟩
    · rename_i unsettled free
      obtain ⟨s', w', begun, launched⟩ :=
        launch_stirs provider budget unsettled active (.inl free) w
      exact ⟨s', w', [begun], launched⟩
    · rename_i holder unsettled granted
      split
      · rename_i own
        obtain ⟨s', w', begun, launched⟩ :=
          launch_stirs provider budget unsettled active (.inr (own ▸ granted)) w
        exact ⟨s', w', [begun], launched⟩
      · exact ⟨_, w, [], rfl, rfl,
          enqueue_stirs budget unsettled ⟨task, active⟩ (by rw [granted]; nofun)⟩
    · rename_i b unsettled taken
      split
      · rename_i own
        obtain ⟨looked, now, slots⟩ := attend_looked provider budget unsettled w b task
        exact ⟨_, _, _, attend_noted .., rfl, now, slots,
          .looks ⟨task, active⟩ unsettled taken own looked⟩
      · exact ⟨_, w, [], rfl, rfl,
          enqueue_stirs budget unsettled ⟨task, active⟩ (by rw [taken]; nofun)⟩
  · exact ⟨s, w, [], rfl, rfl, rfl, rfl, .aside rfl rfl rfl⟩

theorem poll_launches {s : State} (unsettled : s.outcome = none) (running : s.halted = none)
    {caller : Nat} (active : s.Active caller) (idle : s.turn = .free ∨ s.turn = .granted caller)
    (w : σ) : (poll provider budget s w caller).1.slots = s.slots + 1 := by
  obtain ⟨task, found⟩ := active
  obtain ⟨s', w', begun, -, launched, -, slots, -⟩ :=
    launch_stirs provider budget unsettled found idle w
  have polled : poll provider budget s w caller = launch provider budget s w caller task := by
    rcases idle with free | granted
    · simp only [poll, running, found, unsettled, free]
    · simp only [poll, running, found, unsettled, granted, if_true]
  rw [polled, launched]
  exact slots

end

end Sandbox.Runner

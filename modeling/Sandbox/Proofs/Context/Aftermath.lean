import Sandbox.Proofs.Context.Serving
import Sandbox.Proofs.Context.Shadow
import Sandbox.Proofs.Runner.Outcome

namespace Sandbox.Context.Thread

open Runner

def posted : List Action → List Request
  | [] => []
  | .post request :: rest => request :: posted rest
  | .destroy :: _ => []
  | _ :: rest => posted rest

theorem posted_destroyed (before after : List Action) :
    posted (before ++ .destroy :: after) = posted before := by
  induction before with
  | nil => rfl
  | cons action rest ih => cases action <;> simp [posted, ih]

theorem post_destroyed {t : Thread} (destroyed : t.destroyed = true) (request : Request) :
    t.post request = (.error (.link .contextDestroyed), t) := by
  rw [post, if_pos destroyed]

structure Closes (t : Thread) : Prop where
  closed : t.service.closed = t.destroyed
  empty : t.service.accepting = false → t.service.inbox = [] ∧ t.destroyed = true

section
variable {σ : Type} (provider : Engine.Provider σ) (budget : Duration)

theorem step_destroyed (t : Thread) (w : σ) {action : Action} (lasting : action ≠ .destroy) :
    (step provider budget (t, w) action).2.1.destroyed = t.destroyed := by
  cases action with
  | post request =>
    simp only [step, post]
    split <;> rfl
  | destroy => exact absurd rfl lasting
  | receive =>
    simp only [step, receive]
    split <;> rfl
  | poll caller =>
    simp only [step, poll]
    split <;> rfl
  | forward =>
    simp only [step, forward]
    split
    · split <;> rfl
    · rfl
  | deliver slot mail => rfl
  | advance span => rfl

theorem step_sent {t : Thread} (destroyed : t.destroyed = true) (w : σ) (action : Action) :
    (step provider budget (t, w) action).1 = [] ∧
      (step provider budget (t, w) action).2.1.destroyed = true := by
  refine ⟨?_, ?_⟩
  · cases action with
    | forward =>
      simp only [step, forward, destroyed, if_true]
      split <;> rfl
    | _ => rfl
  · by_cases lasting : action = .destroy
    · rw [lasting]
      rfl
    · rw [step_destroyed provider budget t w lasting, destroyed]

theorem run_sent {t : Thread} (destroyed : t.destroyed = true) (w : σ) (actions : List Action) :
    (run provider budget (t, w) actions).1 = [] ∧
      (run provider budget (t, w) actions).2.1.destroyed = true := by
  induction actions generalizing t w with
  | nil => exact ⟨rfl, destroyed⟩
  | cons action rest ih =>
    obtain ⟨silent, destroyed'⟩ := step_sent provider budget destroyed w action
    obtain ⟨later, stays⟩ := ih destroyed' (step provider budget (t, w) action).2.2
    rw [run]
    exact ⟨by simp [silent, later], stays⟩

/-! ## The end of a thread -/

theorem Closes.step {t : Thread} (closes : Closes t) (w : σ) (action : Action) :
    Closes (step provider budget (t, w) action).2.1 := by
  cases action with
  | post request =>
    simp only [Thread.step, Thread.post, Service.post]
    split
    · exact closes
    · rename_i alive
      have opened := closes.closed
      rw [if_neg (opened ▸ alive)]
      refine ⟨opened, fun stopped => ?_⟩
      exact absurd (closes.empty stopped).2 alive
  | destroy => exact ⟨rfl, fun stopped => ⟨(closes.empty stopped).1, rfl⟩⟩
  | receive =>
    simp only [Thread.step, Thread.receive]
    split
    · exact closes
    · simp only [Service.receive]
      split
      · rename_i accepting running inbox
        exact ⟨closes.closed, fun stopped => absurd stopped (by simp [accepting])⟩
      · rename_i empty
        split
        · rename_i closed
          exact ⟨closes.closed, fun _ => ⟨empty, closes.closed ▸ closed⟩⟩
        · exact closes
      · exact closes
  | poll caller =>
    simp only [Thread.step, Thread.poll]
    split
    · exact closes
    · exact ⟨closes.closed, closes.empty⟩
  | forward =>
    simp only [Thread.step, Thread.forward]
    split
    · split
      · exact ⟨closes.closed, closes.empty⟩
      · exact ⟨closes.closed, closes.empty⟩
    · exact closes
  | deliver slot mail => exact ⟨closes.closed, closes.empty⟩
  | advance span => exact ⟨closes.closed, closes.empty⟩

theorem Closes.run {t : Thread} (closes : Closes t) (w : σ) (actions : List Action) :
    Closes (run provider budget (t, w) actions).2.1 := by
  induction actions generalizing t w with
  | nil => exact closes
  | cons action rest ih => exact ih (closes.step provider budget w action) _

theorem ended_onRunner (t : Thread) (change : State → State)
    (calls : (change t.service.runner).calls = t.service.runner.calls) :
    (t.onRunner change).ended = t.ended := by
  have same : (t.onRunner change).service.mayAnswer = t.service.mayAnswer := by
    rw [Service.mayAnswer, Service.mayAnswer]
    simp only [onRunner, Service.onRunner, calls]
  rw [ended, ended, same]
  rfl

theorem ended_step {t : Thread} (closes : Closes t) (ended : t.ended = true) (w : σ)
    (action : Action) : (step provider budget (t, w) action).2.1.ended = true ∧
      (step provider budget (t, w) action).2.2 = w := by
  have stopped : t.service.accepting = false := by
    rw [Thread.ended] at ended
    simp at ended
    exact ended.1
  obtain ⟨-, destroyed⟩ := closes.empty stopped
  cases action with
  | post request =>
    simp only [step, post, destroyed, if_true]
    exact ⟨ended, trivial⟩
  | destroy => exact ⟨ended, rfl⟩
  | receive =>
    simp only [step, receive, ended, if_true]
    exact ⟨trivial, trivial⟩
  | poll caller =>
    simp only [step, poll, ended, if_true]
    exact ⟨trivial, trivial⟩
  | forward =>
    have idle : t.forward = ([], t) := by
      rw [Thread.ended, stopped] at ended
      rcases (by simpa using ended : t.forwarding = false ∨ _ ∧ t.service.outbox = []) with quiet | rest
      · rw [forward, quiet]
      · exact forward_idle (.inr rest.2)
    rw [step, idle]
    exact ⟨ended, rfl⟩
  | deliver slot mail =>
    rw [← ended_onRunner t (fun r => (Runner.deliver r slot mail).2)
      (deliver_calls t.service.runner slot mail).1] at ended
    exact ⟨ended, rfl⟩
  | advance span => exact ⟨ended, rfl⟩

theorem ended_run {t : Thread} (closes : Closes t) (ended : t.ended = true) (w : σ)
    (actions : List Action) : (run provider budget (t, w) actions).2.1.ended = true ∧
      (run provider budget (t, w) actions).2.2 = w := by
  induction actions generalizing t with
  | nil => exact ⟨ended, rfl⟩
  | cons action rest ih =>
    obtain ⟨stays, same⟩ := ended_step provider budget closes ended w action
    have closes' := closes.step provider budget w action
    rcases stepped : step provider budget (t, w) action with ⟨sent, t', w'⟩
    rw [stepped] at stays same closes'
    obtain rfl : w' = w := same
    rw [run, stepped]
    exact ih closes' stays

/-! ## What it executes -/

theorem carries_step {τ : Type} {f : σ → τ} {image : Engine.Provider τ}
    (carries : Carries f provider image) (t : Thread) (w : σ) (action : Action) :
    step image budget (t, f w) action = (step provider budget (t, w) action).map id (.map id f) := by
  cases action with
  | poll caller =>
    simp only [step, poll, Service.poll, carries.poll]
    split <;> rfl
  | _ => rfl

theorem carries_run {τ : Type} {f : σ → τ} {image : Engine.Provider τ}
    (carries : Carries f provider image) (t : Thread) (w : σ) (actions : List Action) :
    run image budget (t, f w) actions = (run provider budget (t, w) actions).map id (.map id f) := by
  induction actions generalizing t w with
  | nil => rfl
  | cons action rest ih =>
    rw [run, run, carries_step provider budget carries]
    exact congrArg (fun c => (_ ++ c.1, c.2)) (ih _ _)

theorem Serves.step {requests : List Request} {log : List (Nat × Execution)} {t : Thread}
    (serves : Serves requests log t) (w : σ) (action : Action) :
    ∃ sent t' w' more, Thread.step (observed provider) budget (t, w, []) action =
        (sent, t', w', more.map Prod.snd) ∧
      Thread.step provider budget (t, w) action = (sent, t', w') ∧
      Serves (requests ++ if t.destroyed then [] else action.post?.toList) (log ++ more) t' := by
  have quiet : ∀ {sent t'}, Serves requests log t' → action.post? = none →
      Thread.step (observed provider) budget (t, w, []) action = (sent, t', w, []) →
      Thread.step provider budget (t, w) action = (sent, t', w) →
      ∃ sent t' w' more, Thread.step (observed provider) budget (t, w, []) action =
          (sent, t', w', more.map Prod.snd) ∧
        Thread.step provider budget (t, w) action = (sent, t', w') ∧
        Serves (requests ++ if t.destroyed then [] else action.post?.toList) (log ++ more) t' := by
    intro sent t' after none eq plain
    refine ⟨sent, t', w, [], eq, plain, ?_⟩
    rwa [none, Option.toList_none, ite_self, List.append_nil, List.append_nil]
  cases action with
  | post request =>
    by_cases destroyed : t.destroyed = true
    · have refused := post_destroyed destroyed request
      refine ⟨[], t, w, [], by rw [Thread.step, refused]; rfl, by rw [Thread.step, refused], ?_⟩
      rwa [if_pos destroyed, List.append_nil, List.append_nil]
    · have accepted : t.post request = (.ok (), { t with service := t.service.post request }) := by
        rw [Thread.post, if_neg destroyed]
      refine ⟨[], _, w, [], by rw [Thread.step, accepted]; rfl, by rw [Thread.step, accepted], ?_⟩
      rw [if_neg destroyed, List.append_nil]
      exact (serves.post accepted).1
  | destroy => exact quiet serves.destroy rfl rfl rfl
  | receive => exact quiet serves.receive.1 rfl rfl rfl
  | poll caller =>
    obtain ⟨t', w', record, eq, plain, after, -⟩ := serves.poll provider budget w caller
    refine ⟨[], t', w', record.map fun execution => (caller, execution), ?_, ?_, ?_⟩
    · simp [Thread.step, eq, Function.comp_def]
    · rw [Thread.step, plain]
    · simpa [Action.post?] using after
  | forward => exact quiet serves.forward.1 rfl rfl rfl
  | deliver slot mail =>
    obtain ⟨calls, outcome, halted⟩ := deliver_calls t.service.runner slot mail
    exact quiet (serves.onRunner (fun r => (Runner.deliver r slot mail).2) calls outcome halted).1 rfl
      rfl rfl
  | advance span =>
    exact quiet (serves.onRunner (fun r => { r with now := r.now + span }) rfl rfl rfl).1 rfl rfl rfl

theorem Serves.run {requests : List Request} {log : List (Nat × Execution)} {t : Thread}
    (serves : Serves requests log t) (w : σ) (actions : List Action) :
    ∃ sent t' w' more, Thread.run (observed provider) budget (t, w, []) actions =
        (sent, t', w', more.map Prod.snd) ∧
      Thread.run provider budget (t, w) actions = (sent, t', w') ∧
      Serves (requests ++ if t.destroyed then [] else posted actions) (log ++ more) t' := by
  induction actions generalizing requests log t w with
  | nil =>
    refine ⟨[], t, w, [], rfl, rfl, ?_⟩
    rwa [posted, ite_self, List.append_nil, List.append_nil]
  | cons action rest ih =>
    obtain ⟨sent, t₁, w₁, more, eq, plain, serves₁⟩ := serves.step provider budget w action
    obtain ⟨later, t', w', more', eq', plain', serves'⟩ := ih serves₁ w₁
    have carried := carries_run (observed provider) budget
      (observed_carries provider (more.map Prod.snd)) t₁ (w₁, []) rest
    rw [List.append_nil, eq'] at carried
    have accepted : (if t.destroyed then [] else action.post?.toList) ++
        (if t₁.destroyed then [] else posted rest) =
          if t.destroyed then [] else posted (action :: rest) := by
      have stays := fun lasting : action ≠ .destroy =>
        step_destroyed provider budget t w lasting
      rw [plain] at stays
      cases action with
      | destroy =>
        cases plain
        simp [Action.post?, posted, Thread.destroy]
      | _ => rw [← stays (by simp)]; split <;> simp [Action.post?, posted]
    refine ⟨sent ++ later, t', w', more ++ more', ?_, ?_, ?_⟩
    · rw [Thread.run, eq, List.map_append]
      simp only [carried]
      rfl
    · rw [Thread.run, plain]
      simp only [plain']
    · rwa [List.append_assoc, accepted, List.append_assoc] at serves'

/-! ## What still goes on -/

theorem poll_executes {t : Thread} (going : t.ended = false) (running : t.service.runner.halted = none)
    {engine : Nat} (settled : t.service.runner.outcome = some (.ok engine)) {caller : Nat}
    {id : CorrelationId} {code : String}
    (waits : t.service.runner.calls[caller]? = some ⟨.answer ⟨id, .run code⟩, .active⟩) (w : σ) :
    ∃ verdict, (run (observed provider) budget (t, w, []) [.poll caller]).2.2.2 =
      [⟨engine, code, verdict⟩] := by
  rcases executed : provider.execute w engine code with ⟨verdict, w'⟩
  refine ⟨verdict, ?_⟩
  have ran := observed_execute provider executed []
  simp only [run, step, poll, going, Service.poll, Runner.poll, running, waits, settled, conclude, ran]
  cases verdict <;> simp [responseKind?]

theorem receive_front {t : Thread} (accepting : t.service.accepting = true)
    (running : t.service.runner.halted = none) {request : Request} {rest : List Request}
    (inbox : t.service.inbox = request :: rest) :
    t.receive = { t with service := { t.service with
      runner := (t.service.runner.start (.answer request)).2
      inbox := rest
      serving := t.service.serving ++ [t.service.runner.calls.length] } } := by
  have going : t.ended = false := by simp [ended, accepting]
  simp only [receive, going, Service.receive, accepting, running, inbox]
  rfl

theorem receives {t : Thread} (accepting : t.service.accepting = true)
    (running : t.service.runner.halted = none) {k : Nat} {request : Request}
    (queued : t.service.inbox[k]? = some request) (w : σ) :
    ∃ sent t', run provider budget (t, w) (List.replicate (k + 1) .receive) = (sent, t', w) ∧
      t'.service.accepting = true ∧ t'.service.runner.halted = none ∧
      t'.service.runner.outcome = t.service.runner.outcome ∧
      t'.service.runner.calls[t.service.runner.calls.length + k]? = some ⟨.answer request, .active⟩ := by
  induction k generalizing t with
  | zero =>
    cases inbox : t.service.inbox with
    | nil => simp [inbox] at queued
    | cons first rest =>
      obtain rfl : first = request := by simpa [inbox] using queued
      refine ⟨[], t.receive, rfl, ?_⟩
      rw [receive_front accepting running inbox]
      exact ⟨accepting, running, rfl, List.getElem?_concat_length⟩
  | succ k ih =>
    cases inbox : t.service.inbox with
    | nil => simp [inbox] at queued
    | cons first rest =>
      have took := receive_front accepting running inbox
      have queued' : t.receive.service.inbox[k]? = some request := by
        rw [took]
        simpa [inbox] using queued
      obtain ⟨sent, t', ran, accepting', running', same, waits⟩ :=
        ih (took ▸ accepting) (took ▸ running) queued'
      refine ⟨sent, t', ?_, accepting', running', ?_, ?_⟩
      · rw [List.replicate_succ]
        simp only [run, step, ran, List.nil_append]
      · rw [same, took]
        rfl
      · rw [← waits, took]
        simp [State.start, Nat.add_assoc, Nat.add_comm 1 k]

end

/-- What a thread that has been destroyed may still do: what it executes now is what waits, as long
as it has not ended. -/
structure Remains {σ : Type} (provider : Engine.Provider σ) (budget : Duration) (t : Thread) (w : σ) :
    Prop where
  refuses : ∀ request, t.post request = (.error (.link .contextDestroyed), t)
  finished : t.ended = true → t.service.inbox = [] ∧
    ∀ later, (run (observed provider) budget (t, w, []) later).2.2.2 = []
  calls : t.ended = false → t.service.runner.halted = none → ∀ engine,
    t.service.runner.outcome = some (.ok engine) → ∀ caller id code,
    t.service.runner.calls[caller]? = some ⟨.answer ⟨id, .run code⟩, .active⟩ →
    ∃ verdict, (run (observed provider) budget (t, w, []) [.poll caller]).2.2.2 =
      [⟨engine, code, verdict⟩]
  queue : t.service.runner.halted = none → ∀ engine,
    t.service.runner.outcome = some (.ok engine) → ∀ (k : Nat) id code,
    t.service.inbox[k]? = some ⟨id, .run code⟩ →
    ∃ verdict, (run (observed provider) budget (t, w, []) (List.replicate (k + 1) .receive ++
      [.poll (t.service.runner.calls.length + k)])).2.2.2 = [⟨engine, code, verdict⟩]

theorem Closes.remains {σ : Type} (provider : Engine.Provider σ) (budget : Duration) {t : Thread}
    (closes : Closes t) (destroyed : t.destroyed = true) (w : σ) : Remains provider budget t w := by
  refine ⟨post_destroyed destroyed, fun finished => ⟨?_, fun later => ?_⟩,
    fun going running engine settled caller id code waits => ?_,
    fun running engine settled k id code queued => ?_⟩
  · rw [ended] at finished
    simp at finished
    exact (closes.empty finished.1).1
  · obtain ⟨-, same⟩ := ended_run (observed provider) budget closes finished (w, []) later
    rw [same]
  · exact poll_executes provider budget going running settled waits w
  · have accepting : t.service.accepting = true := by
      refine eq_true_of_ne_false fun stopped => ?_
      simp [(closes.empty stopped).1] at queued
    obtain ⟨sent, t', ran, accepting', running', same, waits⟩ :=
      receives (observed provider) budget accepting running queued (w, [])
    have going : t'.ended = false := by simp [ended, accepting']
    obtain ⟨verdict, executed⟩ :=
      poll_executes provider budget going running' (same.trans settled) waits w
    exact ⟨verdict, by rw [run_append, ran]; exact executed⟩

/-- A thread that has been destroyed is not heard of, and executes nothing but what was posted to it
before, each request once. Nothing stops it from that until it ends, and until its queue is empty
it does not end. -/
theorem destroyed_threads_drain {σ : Type} (provider : Engine.Provider σ) (budget now : Duration)
    (w : σ) (before after : List Action) :
    let c := (run provider budget ({ service := Service.start { runner := { now } } }, w)
      (before ++ [.destroy])).2
    let c' := (run provider budget c after).2
    (run provider budget c after).1 = [] ∧
    (∃ log more : List (Nat × Execution), ∃ received,
      (run (observed provider) budget ({ service := Service.start { runner := { now } } }, w, [])
        (before ++ [.destroy])).2.2.2 = log.map Prod.snd ∧
      (run (observed provider) budget (c.1, c.2, []) after).2.2.2 = more.map Prod.snd ∧
      received ++ c'.1.service.inbox = posted before ∧
      c'.1.service.runner.calls.map Call.task = .warmUp :: received.map .answer ∧
      ((log ++ more).map Prod.fst).Nodup ∧
      ∀ entry ∈ log ++ more, ∃ id phase, c'.1.service.runner.calls[entry.1]? =
        some ⟨.answer ⟨id, .run entry.2.code⟩, phase⟩) ∧
    Remains provider budget c'.1 c'.2 := by
  let start : Thread := { service := Service.start { runner := { now } } }
  intro c c'
  obtain ⟨sent, t, w₁, log, eq, plain, serves⟩ :=
    (Serves.begin now).run provider budget w (before ++ [.destroy])
  have asked : posted (before ++ [.destroy]) = posted before := posted_destroyed before []
  have same : c = (t, w₁) := congrArg Prod.snd plain
  have destroyed : t.destroyed = true := by
    have last := congrArg Prod.snd (run_append provider budget (start, w) before [.destroy])
    rw [show run provider budget (start, w) (before ++ [.destroy]) = _ from plain] at last
    rw [show t = _ from congrArg Prod.fst last]
    rfl
  obtain ⟨sent', t', w', more, eq', plain', serves'⟩ := serves.run provider budget w₁ after
  obtain ⟨silent, stays⟩ := run_sent provider budget destroyed w₁ after
  have closes : Closes start := ⟨rfl, nofun⟩
  have closes' := (closes.run provider budget w (before ++ [.destroy])).run provider budget w₁ after
  rw [show run provider budget (start, w) (before ++ [.destroy]) = _ from plain] at closes'
  rw [plain'] at silent stays closes'
  have same' : c' = (t', w') := by
    change (run provider budget c after).2 = _
    rw [same, plain']
  have requests : ([] ++ (if start.destroyed then [] else posted (before ++ [.destroy]))) ++
      (if t.destroyed then [] else posted after) = posted before := by
    rw [if_pos destroyed, asked]
    exact List.append_nil _
  rw [requests] at serves'
  obtain ⟨received, split, tasks⟩ := serves'.taken
  rw [same', same, plain']
  refine ⟨silent, ⟨log, more, received, congrArg (fun c => c.2.2.2) eq, ?_, split, tasks,
    serves'.accounted.once, fun entry member => ?_⟩, closes'.remains provider budget stays w'⟩
  · rw [eq']
  · obtain ⟨id, phase, found, -⟩ := serves'.accounted.ran entry member
    exact ⟨id, phase, found⟩

def bequest : List Action := [.post ⟨⟨"a"⟩, .run "x"⟩, .poll 0]

theorem destroyed_threads_drain_bequest :
    let c := (run Service.slow ⟨1⟩ ({}, ()) (bequest ++ [.destroy])).2
    let c' := (run Service.slow ⟨1⟩ c [.deliver 0 (.published 4), .poll 0]).2
    (∀ request, c'.1.post request = (.error (.link .contextDestroyed), c'.1)) ∧
    ∃ verdict, (run (observed Service.slow) ⟨1⟩ (c'.1, c'.2, []) [.receive, .poll 1]).2.2.2 =
      [⟨4, "x", verdict⟩] := by
  obtain ⟨-, -, remains⟩ := destroyed_threads_drain Service.slow ⟨1⟩ ⟨0⟩ () bequest
    [.deliver 0 (.published 4), .poll 0]
  exact ⟨remains.refuses, remains.queue rfl 4 rfl 0 ⟨"a"⟩ "x" rfl⟩

/-- It is executed although nothing had been when the thread was destroyed. -/
theorem queue_outlives_destruction :
    let start : Thread × Unit × List Execution := ({}, (), [])
    let destroyed := (run (observed Service.slow) ⟨1⟩ start (bequest ++ [.destroy])).2
    let later := (run (observed Service.slow) ⟨1⟩ destroyed
      [.deliver 0 (.published 4), .poll 0, .receive, .poll 1]).2
    destroyed.1.destroyed = true ∧ destroyed.2.2 = [] ∧
      later.2.2 = [⟨4, "x", .output ⟨some "x", none⟩⟩] :=
  ⟨rfl, rfl, rfl⟩

end Sandbox.Context.Thread

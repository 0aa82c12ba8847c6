import Mathlib
import Sandbox.Proofs.Runner.Progress

namespace Sandbox.Runner

open Engine

namespace Service

/-! ## What was asked, and what was sent -/

def posted : List Action → List Request
  | [] => []
  | .post request :: rest => request :: posted rest
  | .close :: _ => []
  | _ :: rest => posted rest

def Asked (s : State) (caller : Nat) (request : Request) : Prop :=
  ∃ phase, s.calls[caller]? = some ⟨.answer request, phase⟩

structure Serves (posted : List Request) (s : Service) : Prop where
  taken : ∃ received, received ++ s.inbox = posted ∧
    List.Forall₂ (Asked s.runner) s.serving received
  once : s.serving.Nodup
  sound : ∀ call ∈ s.runner.calls, call.Sound
  sent : s.heard = true → s.outbox.Perm (s.serving.filterMap (answer? s.runner))

theorem answer?_start (s : State) (task : Task) : answer? (s.start task).2 = answer? s := by
  funext caller
  rw [answer?_eq, answer?_eq, State.start, List.getElem?_append]
  split
  · rfl
  · rename_i beyond
    rw [List.getElem?_eq_none (Nat.not_lt.mp beyond), List.getElem?_singleton]
    split <;> rfl

theorem filterMap_answered {callers : List Nat} (once : callers.Nodup)
    {before after : Nat → Option Response} {caller : Nat} (unanswered : before caller = none)
    (others : ∀ other ≠ caller, after other = before other) :
    (callers.filterMap after).Perm
      (callers.filterMap before ++ if caller ∈ callers then (after caller).toList else []) := by
  have same : ∀ callers : List Nat, caller ∉ callers →
      callers.filterMap after = callers.filterMap before := by
    intro callers absent
    refine List.filterMap_congr fun other member => others other ?_
    rintro rfl
    exact absent member
  by_cases member : caller ∈ callers
  · obtain ⟨first, last, rfl⟩ := List.append_of_mem member
    obtain ⟨-, once, apart⟩ := List.nodup_append.mp once
    have first_absent : caller ∉ first := fun early => apart _ early _ List.mem_cons_self rfl
    rw [if_pos member, List.filterMap_append, List.filterMap_append,
      List.filterMap_cons_none unanswered, same first first_absent, List.append_assoc]
    refine List.Perm.append_left _ ?_
    cases answered : after caller with
    | none => rw [List.filterMap_cons_none answered, same last (List.nodup_cons.mp once).1]; simp
    | some response =>
      rw [List.filterMap_cons_some answered, same last (List.nodup_cons.mp once).1]
      exact (List.perm_append_singleton response _).symm
  · rw [if_neg member, List.append_nil, same callers member]

namespace Serves

variable {asked : List Request} {s : Service}

theorem begin : Serves [] {} := by
  refine ⟨⟨[], rfl, .nil⟩, .nil, ?_, fun _ => .nil⟩
  intro call member
  cases member

theorem known (serves : Serves asked s) {caller : Nat} (member : caller ∈ s.serving) :
    caller < s.runner.calls.length := by
  obtain ⟨received, -, calls⟩ := serves.taken
  generalize s.serving = callers at member calls
  induction calls with
  | nil => cases member
  | cons own rest ih =>
    rcases List.mem_cons.mp member with rfl | later
    · obtain ⟨phase, found⟩ := own
      exact (List.getElem?_eq_some_iff.mp found).choose
    · exact ih later

theorem extend (serves : Serves asked s) {runner : State} (extended : s.runner.Extends runner) :
    ∃ received, received ++ s.inbox = asked ∧ List.Forall₂ (Asked runner) s.serving received := by
  obtain ⟨received, split, calls⟩ := serves.taken
  refine ⟨received, split, calls.imp fun caller request => ?_⟩
  rintro ⟨phase, found⟩
  obtain ⟨phase', after, -⟩ := extended caller _ phase found
  exact ⟨phase', after⟩

theorem onRunner (serves : Serves asked s) {runner : State} (extended : s.runner.Extends runner)
    (sound : ∀ call ∈ runner.calls, call.Sound) (same : answer? runner = answer? s.runner) :
    Serves asked { s with runner } := by
  refine ⟨serves.extend extended, serves.once, sound, ?_⟩
  dsimp only
  rw [same]
  exact serves.sent

theorem congr (serves : Serves asked s) {s' : Service} (runner : s'.runner = s.runner)
    (inbox : s'.inbox = s.inbox) (serving : s'.serving = s.serving)
    (sent : s'.heard = true → s.heard = true ∧ s'.outbox = s.outbox) : Serves asked s' := by
  refine ⟨?_, serving ▸ serves.once, runner ▸ serves.sound, fun heard => ?_⟩
  · rw [runner, inbox, serving]
    exact serves.taken
  · obtain ⟨heard, outbox⟩ := sent heard
    rw [outbox, serving, runner]
    exact serves.sent heard

theorem start (serves : Serves asked s) (task : Task) :
    Serves asked { s with runner := (s.runner.start task).2 } := by
  refine serves.onRunner (s.runner.start_extends task) ?_ (answer?_start s.runner task)
  intro call member
  rcases List.mem_append.mp member with old | new
  · exact serves.sound call old
  · obtain rfl := List.mem_singleton.mp new
    exact .active task

theorem receive (serves : Serves asked s) : Serves asked s.receive := by
  rw [Service.receive]
  split
  · rename_i request rest accepting running inbox
    have started := serves.start (.answer request)
    obtain ⟨received, split, calls⟩ := started.taken
    have new : Asked (s.runner.start (.answer request)).2 s.runner.calls.length request :=
      ⟨.active, by simp [State.start]⟩
    refine ⟨⟨received ++ [request], ?_, ?_⟩, ?_, started.sound, fun heard => ?_⟩
    · rw [← split]
      simp [inbox]
    · exact List.rel_append calls (.cons new .nil)
    · refine List.nodup_append.mpr ⟨serves.once, List.pairwise_singleton _ _, ?_⟩
      rintro caller member _ own rfl
      exact Nat.ne_of_lt (serves.known member) (List.mem_singleton.mp own)
    · have silent : answer? s.runner s.runner.calls.length = none := by simp [answer?_eq]
      change s.outbox.Perm ((s.serving ++ [s.runner.calls.length]).filterMap
        (answer? (s.runner.start (.answer request)).2))
      rw [answer?_start, List.filterMap_append, List.filterMap_cons_none silent, List.filterMap_nil,
        List.append_nil]
      exact serves.sent heard
  · split
    · exact serves.congr rfl rfl rfl fun heard => ⟨heard, rfl⟩
    · exact serves
  · exact serves

section
variable {σ : Type} (provider : Provider σ) (budget : Duration)

theorem poll (serves : Serves asked s) (w : σ) (caller : Nat) :
    Serves asked (s.poll provider budget w caller).1 := by
  obtain ⟨runner, w', record, -, plain, polled⟩ := poll_observed provider budget s.runner w caller
  have extended := polled.extends
  cases polled with
  | waits calls outcome halted =>
    have same : answer? runner = answer? s.runner := by
      funext other
      rw [answer?_eq, answer?_eq, calls]
    have kept := serves.onRunner extended (calls ▸ serves.sound) same
    simp only [Service.poll, plain, same]
    refine kept.congr rfl rfl rfl fun heard => ⟨heard, ?_⟩
    cases answer? s.runner caller <;> simp
  | @concludes _ task outcome _ phase found running settled after calls conclusion =>
    obtain ⟨sound, -⟩ := modify_sound found serves.sound conclusion.sound
    have before : answer? s.runner caller = none := by
      rw [answer?_eq, found]
      rfl
    have others : ∀ other ≠ caller, answer? runner other = answer? s.runner other := by
      intro other apart
      rw [answer?_eq, answer?_eq, calls, getElem?_modify_phase, if_neg apart.symm]
    simp only [Service.poll, plain, before]
    refine ⟨serves.extend extended, serves.once, calls ▸ sound, fun heard => ?_⟩
    refine ((serves.sent heard).append_right _).trans ?_
    refine .trans ?_ (filterMap_answered serves.once before others).symm
    simp [show s.heard = true from heard]

theorem step (serves : Serves asked s) (w : σ) {action : Action} (keeps : action.Keeps)
    (silent : ∀ request, action ≠ .post request) :
    Serves asked (step provider budget (s, w) action).1 := by
  cases action with
  | start => exact (serves.start .warmUp).congr rfl rfl rfl fun heard => ⟨heard, rfl⟩
  | post request => exact absurd rfl (silent request)
  | close => exact serves.congr rfl rfl rfl fun heard => ⟨heard, rfl⟩
  | stopListening => exact serves.congr rfl rfl rfl nofun
  | receive => exact serves.receive
  | runner action =>
    cases action with
    | start task => exact serves.start task
    | poll caller => exact serves.poll provider budget w caller
    | cancel caller => exact absurd rfl (keeps caller)
    | deliver slot mail =>
      obtain ⟨calls, -, -⟩ := deliver_calls s.runner slot mail
      refine serves.onRunner (.of_calls calls) (calls ▸ serves.sound) ?_
      funext caller
      rw [answer?_eq, answer?_eq, calls]
    | advance span => exact serves.onRunner (.of_calls rfl) serves.sound rfl

theorem post (serves : Serves asked s) (request : Request) (opened : s.closed = false) :
    Serves (asked ++ [request]) (s.post request) := by
  obtain ⟨received, split, calls⟩ := serves.taken
  rw [Service.post, if_neg (by simp [opened])]
  refine ⟨⟨received, ?_, calls⟩, serves.once, serves.sound, serves.sent⟩
  rw [← List.append_assoc, split]

theorem run (serves : Serves asked s) (w : σ) {actions : List Action}
    (keeps : ∀ action ∈ actions, action.Keeps) :
    Serves (asked ++ if s.closed then [] else posted actions)
      (run provider budget (s, w) actions).1 := by
  induction actions generalizing asked s w with
  | nil =>
    rw [posted, ite_self, List.append_nil]
    exact serves
  | cons action rest ih =>
    have first := keeps action List.mem_cons_self
    replace ih : ∀ {asked s} (serves : Serves asked s) (w : σ), Serves
        (asked ++ if s.closed then [] else posted rest) (Service.run provider budget (s, w) rest).1 :=
      fun serves w => ih serves w fun other later => keeps other (List.mem_cons_of_mem _ later)
    have onward : (∀ request, action ≠ .post request) →
        (Service.step provider budget (s, w) action).1.closed = s.closed →
        posted (action :: rest) = posted rest → Serves
          (asked ++ if s.closed then [] else posted (action :: rest))
          (Service.run provider budget (s, w) (action :: rest)).1 := by
      intro silent closed same
      have later := ih (serves.step provider budget w first silent)
        (Service.step provider budget (s, w) action).2
      rwa [closed, ← same] at later
    cases action with
    | post request =>
      by_cases closed : s.closed = true
      · have refused : s.post request = s := if_pos closed
        have later := ih serves w
        rw [if_pos closed] at later ⊢
        rwa [Service.run, List.foldl_cons, Service.step, refused]
      · have opened : (s.post request).closed = false := by simp [Service.post, closed]
        have later := ih (serves.post request (eq_false_of_ne_true closed)) w
        rw [opened, List.append_assoc] at later
        rwa [if_neg closed]
    | close =>
      have later := ih (serves.step provider budget w first (by simp)) w
      rw [posted, ite_self]
      exact later
    | receive =>
      refine onward (by simp) ?_ rfl
      simp only [Service.step, Service.receive]
      split
      · rfl
      · split <;> rfl
      · rfl
    | runner action => exact onward (by simp) (by cases action <;> rfl) rfl
    | _ => exact onward (by simp) rfl rfl

end

end Serves

theorem receive_stopListening (s : Service) :
    s.stopListening.receive = s.receive.stopListening := by
  obtain ⟨⟨now, outcome, turn, queue, slots, calls, halted⟩, inbox, closed, accepting, _⟩ := s
  cases accepting <;> cases halted <;> cases inbox <;> cases closed <;> rfl

section
variable {σ : Type} (provider : Provider σ) (budget : Duration)

theorem run_stopListening (s : Service) (w : σ) (actions : List Action) :
    run provider budget (s.stopListening, w) actions =
      (run provider budget (s, w) actions).map stopListening id := by
  induction actions generalizing s w with
  | nil => rfl
  | cons action rest ih =>
    have stepped : step provider budget (s.stopListening, w) action =
        (step provider budget (s, w) action).map stopListening id := by
      cases action with
      | post request =>
        simp only [step, post]
        split <;> simp_all [stopListening]
      | receive => exact congrArg (·, w) s.receive_stopListening
      | runner action =>
        cases action with
        | poll caller => simp [step, Service.poll, stopListening]
        | _ => rfl
      | _ => rfl
    rw [run, List.foldl_cons, stepped]
    exact ih _ _

end

structure Served (asked : List Request) (s : Service) : Prop where
  answered : List.Forall₂ (fun caller request => ∃ response,
    s.runner.calls[caller]? = some ⟨.answer request, .finished (.response response)⟩ ∧
      response.id = request.id) s.serving asked
  once : s.serving.Nodup
  sent : s.heard = true → s.outbox.Perm (s.serving.filterMap (answer? s.runner)) ∧
    (s.outbox.map Response.id).Perm (asked.map Request.id)

theorem Serves.served {asked : List Request} {s : Service} (serves : Serves asked s)
    (done : Done s) : Served asked s := by
  obtain ⟨received, split, calls⟩ := serves.taken
  rw [done.inbox, List.append_nil] at split
  subst split
  have answered := calls.imp fun caller request => show Asked s.runner caller request →
      ∃ response, s.runner.calls[caller]? = some ⟨.answer request, .finished (.response response)⟩ ∧
        response.id = request.id by
    rintro ⟨phase, found⟩
    have member := List.mem_of_getElem? found
    cases serves.sound _ member with
    | active => exact absurd rfl (done.ended _ member)
    | @replied _ response id => exact ⟨response, found, id⟩
  refine ⟨answered, serves.once, fun heard => ⟨serves.sent heard, ?_⟩⟩
  refine ((serves.sent heard).map Response.id).trans (.of_eq ?_)
  clear serves calls
  generalize s.serving = callers at answered
  induction answered with
  | nil => rfl
  | @cons caller request _ _ own rest ih =>
    obtain ⟨response, found, id⟩ := own
    have answers : answer? s.runner caller = some response := by
      rw [answer?_eq, found]
      rfl
    rw [List.filterMap_cons_some answers, List.map_cons, List.map_cons, ih, id]

/-- Whoever else calls its runner, and however requests, the bootstrap and the end of the queue come
about: a service comes to rest by itself, and has then answered each request that was posted before
the end, once. Nothing but the outbox depends on whether anybody listens. -/
theorem serves_each_request_once {σ : Type} (provider : Provider σ) (budget : Duration)
    (returns : ∀ w engine code how, (provider.execute w engine code).1 ≠ .halt how) (w : σ)
    (actions : List Action) (starts : .start ∈ actions)
    (keeps : ∀ caller, .runner (.cancel caller) ∉ actions) :
    (∃ later, (∀ action ∈ later, action.Own) ∧
      Quiet provider budget (run provider budget ({}, w) (actions ++ later)).1
        (run provider budget ({}, w) (actions ++ later)).2) ∧
    (Quiet provider budget (run provider budget ({}, w) actions).1
        (run provider budget ({}, w) actions).2 →
      Served (posted actions) (run provider budget ({}, w) actions).1) ∧
    ∀ earlier later, actions = earlier ++ .stopListening :: later →
      run (observed provider) budget ({}, w, []) actions =
        (run (observed provider) budget ({}, w, []) (earlier ++ later)).map stopListening id := by
  replace keeps : ∀ action ∈ actions, action.Keeps := by
    rintro action member caller rfl
    exact keeps caller member
  have fresh : Going (Service.runner {}) := ⟨rfl, nofun, nofun⟩
  have going := Going.run budget returns fresh w keeps
  have started := started_of_start provider budget {} w starts
  refine ⟨?_, fun quiet => ?_, ?_⟩
  · obtain ⟨later, own, done⟩ := settles budget returns going started
      (run provider budget ({}, w) actions).2
    refine ⟨later, own, ?_⟩
    rw [run, List.foldl_append]
    exact Done.quiet done
  · exact (Serves.begin.run provider budget w keeps).served (quiet.done returns going started)
  · rintro earlier later rfl
    rw [run, List.foldl_append, List.foldl_cons, run, List.foldl_append]
    exact run_stopListening (observed provider) budget _ _ later

/-! ## A backlog

Two requests with one id wait for an engine that is slow to start and panics when it runs. The queue
is closed, and all requests are taken, before the engine is there.
-/

def nervous : Provider Unit where
  start w _ _ := (⟨none, .ok ()⟩, w)
  execute w _ _ := (.panic (.text "no"), w)

def backlog : List Action :=
  [.post ⟨⟨"a"⟩, .run "x"⟩, .start, .runner (.poll 0), .post ⟨⟨"a"⟩, .ping⟩, .close,
    .post ⟨⟨"b"⟩, .ping⟩, .receive, .receive, .receive, .runner (.poll 2), .runner (.poll 1),
    .runner (.deliver 0 (.published 0)), .runner (.poll 0), .runner (.poll 2), .runner (.poll 1)]

theorem serves_each_request_once_backlog :
    posted backlog = [⟨⟨"a"⟩, .run "x"⟩, ⟨⟨"a"⟩, .ping⟩] ∧
    Served (posted backlog) (run nervous ⟨1⟩ ({}, ()) backlog).1 ∧
    (run nervous ⟨1⟩ ({}, ()) backlog).1.outbox =
      [⟨⟨"a"⟩, .ready⟩, ⟨⟨"a"⟩, .failure "engine panicked: no"⟩] := by
  have returns : ∀ w engine code how, (nervous.execute w engine code).1 ≠ .halt how := by
    intro w engine code how halted
    cases halted
  have starts : .start ∈ backlog := List.mem_cons_of_mem _ List.mem_cons_self
  have keeps : ∀ caller, .runner (.cancel caller) ∉ backlog := by simp [backlog]
  have done : Done (run nervous ⟨1⟩ ({}, ()) backlog).1 := by
    refine ⟨rfl, nofun, fun call member => ?_⟩
    rcases member with _ | ⟨_, _ | ⟨_, _ | ⟨_, ⟨⟩⟩⟩⟩ <;> nofun
  obtain ⟨-, served, -⟩ := serves_each_request_once nervous ⟨1⟩ returns () backlog starts keeps
  exact ⟨rfl, served done.quiet, rfl⟩

end Service

end Sandbox.Runner

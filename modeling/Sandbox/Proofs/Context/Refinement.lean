import Sandbox.Proofs.Context.Inlet
import Sandbox.Proofs.Context.Shadow

/-!
A worker process against a thread. As long as every frame fits, a process does what a thread does whose
tasks move in the same order, and whatever a thread does can be done by a process.
-/

namespace Sandbox.Context

open Client (Event)
open Runner (Service)
open Sandbox.Frame (Sink)

namespace Line

/-! ## What a thread can do -/

def openPipe : Sink := ⟨fun _ => Frame.maxBody, none, .takesNothing, none⟩

theorem openPipe_unlimited : openPipe.Unlimited := ⟨rfl, rfl⟩

def delivery (request : Request) (size : Nat) : List Move :=
  [.post request, .send openPipe, .carry size]

/-- The line has done whatever the thread has: nothing waits or is under way, unless the engine has
taken the worker along. -/
structure Follows (line : Line) (thread : Thread) (forwarded : List Response) : Prop where
  sound : Sound line
  listens : Listens line
  mirrors : Mirrors line thread forwarded
  unbroken : Unbroken line
  queue : line.queue = []
  carried : line.transit = ByteArray.empty
  stays : line.worker.exit = none
  handed : line.worker.service.runner.halted = none → line.handed = line.posted
  told : line.told = forwarded.map .response

section
variable {σ : Type} (provider : Engine.Provider σ) (budget : Duration) {line : Line}

theorem Sound.catchesUp (sound : Sound line) (going : line.outlet.stopped = false)
    (queue : line.queue = []) (carried : line.transit = ByteArray.empty)
    (running : line.worker.service.runner.halted = none) {request : Request}
    (left : line.posted = line.handed ++ [request]) (w : σ) :
    (line.work provider budget w .read).1.handed = line.posted := by
  have written := sound.queued.2 going
  rw [queue, List.append_nil] at written
  have short : ¬line.written <+: line.handed := by
    intro part
    have lengths := part.length_le
    rw [written, left, List.length_append, List.length_singleton] at lengths
    omega
  obtain ⟨other, took⟩ := sound.takes carried (sound.reading going) running short
  have sound' := sound.work provider budget w .read rfl
  have most : (line.work provider budget w .read).1.handed <+: line.posted :=
    sound'.handed.trans sound'.queued.1
  have one : (line.work provider budget w .read).1.handed = line.handed ++ [other] := by
    simp only [Line.work, took, Option.toList_some]
  refine most.eq_of_length ?_
  rw [one, left, List.length_append, List.length_append, List.length_singleton, List.length_singleton]

end

def Reaches {σ : Type} (provider : Engine.Provider σ) (budget : Duration) (line : Line)
    (thread : Thread) (forwarded : List Response) (w : σ) (actions : List Thread.Action) : Prop :=
  ∃ moves, (run provider budget (line, w) moves).2 =
      (Thread.run provider budget (thread, w) actions).2.2 ∧
    (run provider budget (line, w) moves).1.posted =
      line.posted ++ actions.filterMap Thread.Action.post? ∧
    Follows (run provider budget (line, w) moves).1
      (Thread.run provider budget (thread, w) actions).2.1
      (forwarded ++ (Thread.run provider budget (thread, w) actions).1)

namespace Follows

variable {line : Line} {thread : Thread} {forwarded : List Response}

theorem begin : Follows {} {} [] :=
  ⟨.begin, .begin, .begin, ⟨rfl, rfl⟩, rfl, rfl, rfl, fun _ => rfl, rfl⟩

section
variable {σ : Type} (provider : Engine.Provider σ) (budget : Duration)

theorem run_over (follows : Follows line thread forwarded) (w : σ) {request : Request}
    {body : ByteArray} (encoded : Frame.encode request = .ok body) :
    Line.run provider budget (line, w) (delivery request (Frame.enclose body).size) =
      ({ line with
          outlet := ⟨line.outlet.held + (Frame.enclose body).size, false⟩
          worker := { line.worker with input := line.worker.input ++ Frame.enclose body }
          posted := line.posted ++ [request]
          sent := line.sent ++ Frame.enclose body
          writes := line.writes ++ [(request, .ok ())] }, w) := by
  have going := follows.unbroken.outlet
  have opened := follows.sound.opened going
  have wrote := openPipe_unlimited.write encoded .async line.outlet.held
  simp only [Line.run, delivery, List.foldl_cons, List.foldl_nil, Line.step, Line.post, Line.send,
    Outlet.send,
    going, follows.queue, follows.carried, wrote, opened, Line.work, Worker.step,
    Worker.State.takes?, Bool.false_eq_true, if_false, List.nil_append, ByteArray.empty_append,
    ByteArray.extract_zero_size, ByteArray.extract_same, List.append_nil, Option.toList_none]

theorem reach (follows : Follows line thread forwarded) {w : σ} (moves : List Move)
    {actions : List Thread.Action} (shadow : shadows provider budget (line, w) moves = actions)
    (unbroken : Unbroken (Line.run provider budget (line, w) moves).1)
    (queue : (Line.run provider budget (line, w) moves).1.queue = [])
    (carried : (Line.run provider budget (line, w) moves).1.transit = ByteArray.empty)
    (stays : (Line.run provider budget (line, w) moves).1.worker.exit = none)
    (handed : (Line.run provider budget (line, w) moves).1.worker.service.runner.halted = none →
      (Line.run provider budget (line, w) moves).1.handed =
        (Line.run provider budget (line, w) moves).1.posted)
    (told : (Line.run provider budget (line, w) moves).1.told =
      (forwarded ++ (Thread.run provider budget (thread, w) actions).1).map .response) :
    Reaches provider budget line thread forwarded w actions := by
  obtain ⟨sent, thread', ran, mirrors⟩ := follows.mirrors.run provider budget follows.sound w unbroken
  obtain ⟨-, posted⟩ := shadows_posts provider budget unbroken
  rw [shadow] at ran posted
  rw [ran] at told
  refine ⟨moves, ?_, posted, ?_⟩
  · rw [ran]
  · rw [ran]
    exact ⟨follows.sound.run provider budget w moves, follows.listens.run provider budget w moves,
      mirrors, unbroken, queue, carried, stays, handed, told⟩

theorem rest (follows : Follows line thread forwarded) {w : σ} {actions : List Thread.Action}
    (idle : Thread.run provider budget (thread, w) actions = ([], thread, w))
    (silent : actions.filterMap Thread.Action.post? = []) :
    Reaches provider budget line thread forwarded w actions := by
  refine ⟨[], ?_, ?_, ?_⟩
  · rw [idle]
    rfl
  · rw [silent, List.append_nil]
    rfl
  · rw [idle, List.append_nil]
    exact follows

theorem post (follows : Follows line thread forwarded) (w : σ) {request : Request} {body : ByteArray}
    (encoded : Frame.encode request = .ok body) :
    Reaches provider budget line thread forwarded w [.post request] := by
  have delivered := follows.run_over provider budget w encoded
  have sound := follows.sound.run provider budget w (delivery request (Frame.enclose body).size)
  rw [delivered] at sound
  have emits := Worker.step_emits provider budget
    { line.worker with input := line.worker.input ++ Frame.enclose body } w .read
  have through := run_append provider budget (line, w)
    (delivery request (Frame.enclose body).size) [.work .read]
  rw [delivered] at through
  apply follows.reach provider budget (delivery request (Frame.enclose body).size ++ [.work .read])
  · simp [delivery, shadows, shadow?, matching?]
  all_goals rw [through]
  · exact ⟨rfl, (emits.writer (by simp)).1.trans follows.unbroken.writer⟩
  · exact follows.queue
  · exact follows.carried
  · exact (emits.exit (by simp)).trans follows.stays
  · intro running
    have before : line.worker.service.runner.halted = none :=
      Worker.running_of_step provider budget
        { line.worker with input := line.worker.input ++ Frame.enclose body } w .read running
    have caught : line.posted ++ [request] = line.handed ++ [request] := by
      rw [follows.handed before]
    exact sound.catchesUp provider budget rfl follows.queue follows.carried before caught w
  · simp only [Thread.run, Thread.step, List.append_nil]
    exact follows.told

theorem work (follows : Follows line thread forwarded) (w : σ) (action : Worker.Action)
    {matched : Thread.Action} (matching : matching? line.worker action = some matched)
    (unwritten : action ≠ .write)
    (silent : (Thread.step provider budget (thread, w) matched).1 = []) :
    Reaches provider budget line thread forwarded w [matched] := by
  have own : action.fromHost = false := by
    cases action <;> first | rfl | cases matching
  have takes : line.worker.takes? action = none := by
    cases action <;> first | rfl | cases matching
  have stays : action ≠ .leave := by
    rintro rfl
    cases matching
  have emits := Worker.step_emits provider budget line.worker w action
  have through : Line.run provider budget (line, w) [.work action] =
      line.work provider budget w action := by
    simp [Line.run, Line.step, own]
  apply follows.reach provider budget [.work action]
  · simp [shadows, shadow?, follows.stays, matching]
  all_goals rw [through]
  · exact ⟨follows.unbroken.outlet, (emits.writer unwritten).1.trans follows.unbroken.writer⟩
  · exact follows.queue
  · exact follows.carried
  · exact (emits.exit stays).trans follows.stays
  · intro running
    have before := Worker.running_of_step provider budget line.worker w action running
    simp only [Line.work, takes, Option.toList_none, List.append_nil]
    exact follows.handed before
  · simp only [Thread.run, silent, List.append_nil]
    exact follows.told

theorem forward (follows : Follows line thread forwarded) (w : σ)
    (fits : ∀ response ∈ thread.forward.1, ∃ body, Frame.encode response = .ok body) :
    Reaches provider budget line thread forwarded w [.forward] := by
  by_cases idle : thread.service.runner.halted ≠ none ∨ thread.service.outbox = []
  · exact follows.rest provider budget (by simp [Thread.run, Thread.step, Thread.forward_idle idle]) rfl
  obtain ⟨running, pending⟩ := not_or.mp idle
  have running := not_not.mp running
  obtain ⟨response, rest, outbox⟩ := List.exists_cons_of_ne_nil pending
  have sends : thread.forward.1 = [response] := by
    simp [Thread.forward, follows.mirrors.forwarding, follows.mirrors.alive, running, outbox]
  obtain ⟨body, encoded⟩ := fits response (by simp [sends])
  have writer : (Worker.write line.worker).writer = .writing := by
    obtain ⟨waiting, -, service⟩ := follows.mirrors.service
    rw [service] at running outbox
    simp only [Service.await] at running outbox
    simp [Worker.write, follows.unbroken.writer, follows.stays, running, outbox, encoded]
  have emits := Worker.step_emits provider budget line.worker w .write
  have stays := (emits.exit (by simp)).trans follows.stays
  -- Behind the frame that is written now, nothing is left that was not heard.
  have listens := follows.listens.step provider budget w (.work .write)
  obtain ⟨sent, thread', ran, mirrors⟩ := follows.mirrors.step provider budget follows.sound w
    (.work .write) ⟨follows.unbroken.outlet, writer⟩
  have shadow : (line.shadow? (.work .write)).toList = [.forward] := by
    simp [shadow?, follows.stays, matching?]
  rw [shadow] at ran
  simp only [Thread.run, Thread.step, List.append_nil, Prod.mk.injEq] at ran
  obtain ⟨rfl, -, -⟩ := ran
  have heard := listens.take_last stays follows.told (sends ▸ mirrors.output)
  obtain ⟨inlet, told, taken⟩ := (line.work provider budget w .write).1.take_eq
  have through : Line.run provider budget (line, w) [.work .write, .take] =
      ({ (line.work provider budget w .write).1 with inlet, told }, w) :=
    Prod.ext taken rfl
  apply follows.reach provider budget [.work .write, .take]
  · simp [shadows, shadow?, follows.stays, matching?]
  all_goals rw [through]
  · exact ⟨follows.unbroken.outlet, writer⟩
  · exact follows.queue
  · exact follows.carried
  · exact stays
  · intro running'
    have before := Worker.running_of_step provider budget line.worker w .write running'
    exact (List.append_nil line.handed).trans (follows.handed before)
  · simp only [Thread.run, Thread.step, List.append_nil, sends, ← heard]
    exact (congrArg Line.told taken).symm

theorem receive_nothing (follows : Follows line thread forwarded)
    (empty : line.worker.service.inbox = []) : thread.receive = thread := by
  obtain ⟨waiting, split, service⟩ := follows.mirrors.service
  have still : thread.service.receive = thread.service := by
    cases halted : thread.service.runner.halted with
    | some how => exact Service.receive_halted halted
    | none =>
      rw [service] at halted ⊢
      have caught := follows.handed halted
      obtain rfl : waiting = [] := by simpa [split] using caught
      rw [Service.await_nil]
      exact Service.receive_empty empty (Mirrors.accepting follows.sound follows.unbroken.outlet).1
  rw [Thread.receive, still, ite_self]

theorem step (follows : Follows line thread forwarded) (w : σ) (action : Thread.Action)
    (alive : action ≠ .destroy)
    (requests : ∀ request, action = .post request → ∃ body, Frame.encode request = .ok body)
    (responses : ∀ response ∈ (Thread.step provider budget (thread, w) action).1,
      ∃ body, Frame.encode response = .ok body) :
    Reaches provider budget line thread forwarded w [action] := by
  cases action with
  | post request =>
    obtain ⟨body, encoded⟩ := requests request rfl
    exact follows.post provider budget w encoded
  | destroy => exact absurd rfl alive
  | receive =>
    by_cases empty : line.worker.service.inbox = []
    · exact follows.rest provider budget
        (by simp [Thread.run, Thread.step, follows.receive_nothing empty]) rfl
    · have matching : matching? line.worker .receive = some .receive := if_neg empty
      exact follows.work provider budget w .receive matching (by simp) rfl
  | poll caller =>
    have matching : matching? line.worker (.poll caller) = some (.poll caller) := rfl
    exact follows.work provider budget w (.poll caller) matching (by simp) rfl
  | forward => exact follows.forward provider budget w responses
  | deliver slot mail =>
    have matching : matching? line.worker (.deliver slot mail) = some (.deliver slot mail) := rfl
    exact follows.work provider budget w (.deliver slot mail) matching (by simp) rfl
  | advance span =>
    have matching : matching? line.worker (.advance span) = some (.advance span) := rfl
    exact follows.work provider budget w (.advance span) matching (by simp) rfl

theorem run (follows : Follows line thread forwarded) (w : σ) {actions : List Thread.Action}
    (alive : .destroy ∉ actions)
    (requests : ∀ request ∈ actions.filterMap Thread.Action.post?,
      ∃ body, Frame.encode request = .ok body)
    (responses : ∀ response ∈ (Thread.run provider budget (thread, w) actions).1,
      ∃ body, Frame.encode response = .ok body) :
    Reaches provider budget line thread forwarded w actions := by
  induction actions generalizing line thread forwarded w with
  | nil => exact follows.rest provider budget rfl rfl
  | cons action rest ih =>
    have split := Thread.run_append provider budget (thread, w) [action] rest
    rw [List.singleton_append] at split
    rw [split] at responses
    have sent : (Thread.run provider budget (thread, w) [action]).1 =
        (Thread.step provider budget (thread, w) action).1 := List.append_nil _
    obtain ⟨moves, engine, posted, first⟩ := follows.step provider budget w action
      (fun destroyed => alive (by simp [destroyed]))
      (fun request posts => requests request (by simp [posts, Thread.Action.post?]))
      fun response said => responses response (List.mem_append_left _ (sent ▸ said))
    obtain ⟨moves', engine', posted', later⟩ := ih first
      (Thread.run provider budget (thread, w) [action]).2.2
      (fun destroyed => alive (List.mem_cons_of_mem _ destroyed))
      (fun request posts =>
        requests request (((List.sublist_cons_self action rest).filterMap _).subset posts))
      fun response said => responses response (List.mem_append_right _ said)
    have through : Line.run provider budget (line, w) moves =
        ((Line.run provider budget (line, w) moves).1,
          (Thread.run provider budget (thread, w) [action]).2.2) := Prod.ext rfl engine
    refine ⟨moves ++ moves', ?_⟩
    rw [run_append, through, split, ← List.append_assoc]
    refine ⟨engine', ?_, later⟩
    rw [posted', posted, List.append_assoc, ← List.filterMap_append, List.singleton_append]

end

end Follows

/-! ## Frames that fit -/

section
variable {σ : Type} (provider : Engine.Provider σ) (budget : Duration) {line : Line}

theorem step_queued (w : σ) (move : Move) :
    line.posted <+: (step provider budget (line, w) move).1.posted := by
  cases stopped : line.outlet.stopped with
  | true => exact (step_still provider budget stopped w move).posted ▸ List.prefix_refl _
  | false =>
    rw [step_posted provider budget stopped]
    exact List.prefix_append ..

theorem run_queued (w : σ) (moves : List Move) :
    line.posted <+: (run provider budget (line, w) moves).1.posted := by
  induction moves generalizing line w with
  | nil => exact List.prefix_refl _
  | cons move rest ih => exact (step_queued provider budget w move).trans (ih _)

theorem step_going (sound : Sound line) (going : line.outlet.stopped = false) (w : σ) (move : Move)
    (pipes : ∀ pipe, move = .send pipe → pipe.Unlimited)
    (fits : ∀ request ∈ line.posted, ∃ body, Frame.encode request = .ok body) :
    (step provider budget (line, w) move).1.outlet.stopped = false := by
  cases move with
  | post request =>
    rw [step, post]
    split <;> exact going
  | send pipe =>
    rw [step, send]
    split
    · exact going
    · rename_i request queue next
      have queued := sound.queued.2 going
      have member : request ∈ line.posted := by
        rw [← queued, next]
        exact List.mem_append_right _ List.mem_cons_self
      obtain ⟨body, encoded⟩ := fits request member
      have wrote := (pipes pipe rfl).write encoded .async line.outlet.held
      simp [Outlet.send, going, wrote]
  | carry count => exact going
  | hangUp =>
    rw [step]
    split <;> exact going
  | work action =>
    rw [step]
    split <;> exact going
  | take =>
    obtain ⟨inlet, told, same⟩ := line.take_eq
    rw [step, same]
    exact going

theorem run_going (sound : Sound line) (going : line.outlet.stopped = false) (w : σ)
    {moves : List Move} (pipes : ∀ pipe, .send pipe ∈ moves → pipe.Unlimited)
    (fits : ∀ request ∈ (run provider budget (line, w) moves).1.posted,
      ∃ body, Frame.encode request = .ok body) :
    (run provider budget (line, w) moves).1.outlet.stopped = false := by
  induction moves generalizing line w with
  | nil => exact going
  | cons move rest ih =>
    have first := step_going provider budget sound going w move
      (fun pipe sent => pipes pipe (by simp [sent]))
      fun request posted => fits request ((run_queued provider budget w (move :: rest)).subset posted)
    exact ih (sound.step provider budget w move) first _
      (fun pipe later => pipes pipe (List.mem_cons_of_mem _ later)) fits

theorem unbroken_of_fits (w : σ) {moves : List Move}
    (pipes : ∀ pipe, .send pipe ∈ moves → pipe.Unlimited)
    (requests : ∀ request ∈ (run provider budget ({}, w) moves).1.posted,
      ∃ body, Frame.encode request = .ok body)
    (responses : ∀ response ∈
      (run provider budget ({}, w) moves).1.worker.service.runner.replies,
      ∃ body, Frame.encode response = .ok body) :
    Unbroken (run provider budget ({}, w) moves).1 := by
  refine ⟨run_going provider budget .begin rfl w pipes requests, ?_⟩
  by_contra failed
  obtain ⟨framed, flows⟩ := (Sound.begin.run provider budget w moves).flows
  obtain ⟨-, -, lost, cause, unframed, part⟩ := flows.failed failed
  obtain ⟨body, encoded⟩ := responses lost (part.subset List.mem_cons_self)
  cases unframed.symm.trans encoded

end

/-- The thread's service is that of the worker, but for requests that have not come over yet, and what
is heard of the worker is what the thread has forwarded, but for answers that have not been taken yet. A
worker whose engine has taken it along is reported at the end. -/
structure Agrees (line : Line) (thread : Thread) (forwarded : List Response) : Prop where
  service : ∃ waiting, line.posted = line.handed ++ waiting ∧
    thread.service = line.worker.service.await waiting
  told : line.told <+: forwarded.map .response ++ [.crashed "worker exited"]
  running : line.worker.service.runner.halted = none → line.told <+: forwarded.map .response
  heard : line.canTake = false → forwarded.map .response <+: line.told

theorem Mirrors.agrees {line : Line} {thread : Thread} {forwarded : List Response}
    (mirrors : Mirrors line thread forwarded) (sound : Sound line) (listens : Listens line)
    (going : line.outlet.stopped = false) : Agrees line thread forwarded := by
  obtain ⟨told, staying, all⟩ := Heard.report listens mirrors.output
  exact ⟨mirrors.service, told, fun running => staying (sound.lives (sound.reading going) running), all⟩

end Line

/-- What a process makes of requests and answers, against a thread that starts with the same engine. -/
structure Refines {σ : Type} (provider : Engine.Provider σ) (budget : Duration) (w : σ) : Prop where
  delivers : ∀ moves, Line.Delivers (Line.run provider budget ({}, w) moves).1
  still : ∀ moves request cause,
    (request, .error cause) ∈ (Line.run provider budget ({}, w) moves).1.writes →
    ∀ later, Line.Still (Line.run provider budget ({}, w) moves).1
      (Line.run provider budget ({}, w) (moves ++ later)).1
  hears : ∀ source, ∃ responses reason, Inlet.Hears source responses reason
  unbroken : ∀ moves, (∀ pipe, .send pipe ∈ moves → pipe.Unlimited) →
    (∀ request ∈ (Line.run provider budget ({}, w) moves).1.posted,
      ∃ body, Frame.encode request = .ok body) →
    (∀ response ∈ (Line.run provider budget ({}, w) moves).1.worker.service.runner.replies,
      ∃ body, Frame.encode response = .ok body) →
    Line.Unbroken (Line.run provider budget ({}, w) moves).1
  shadowed : ∀ moves, Line.Unbroken (Line.run provider budget ({}, w) moves).1 →
    ∃ actions forwarded thread, .destroy ∉ actions ∧
      actions.filterMap Thread.Action.post? = (Line.run provider budget ({}, w) moves).1.posted ∧
      Thread.run provider budget ({}, w) actions =
        (forwarded, thread, (Line.run provider budget ({}, w) moves).2) ∧
      Line.Agrees (Line.run provider budget ({}, w) moves).1 thread forwarded
  followed : ∀ actions forwarded thread w', .destroy ∉ actions →
    Thread.run provider budget ({}, w) actions = (forwarded, thread, w') →
    (∀ request ∈ actions.filterMap Thread.Action.post?, ∃ body, Frame.encode request = .ok body) →
    (∀ response ∈ forwarded, ∃ body, Frame.encode response = .ok body) →
    ∃ moves line, Line.run provider budget ({}, w) moves = (line, w') ∧ Line.Unbroken line ∧
      line.posted = actions.filterMap Thread.Action.post? ∧ Line.Agrees line thread forwarded ∧
      (line.worker.service.runner.halted = none → line.handed = line.posted) ∧
      line.told = forwarded.map .response

theorem process_refines_thread {σ : Type} (provider : Engine.Provider σ) (budget : Duration) (w : σ) :
    Refines provider budget w := by
  have sound : ∀ moves, Line.Sound (Line.run provider budget ({}, w) moves).1 :=
    Line.Sound.begin.run provider budget w
  refine ⟨fun moves => (sound moves).delivers, ?_, Inlet.hears, ?_, ?_, ?_⟩
  · intro moves request cause failed later
    rw [Line.run_append]
    exact Line.run_still provider budget ((sound moves).writes.failure failed).1 _ later
  · exact fun moves => Line.unbroken_of_fits provider budget w
  · intro moves unbroken
    have listens := Line.Listens.begin.run provider budget w moves
    obtain ⟨alive, posted⟩ := Line.shadows_posts provider budget unbroken
    obtain ⟨forwarded, thread, ran, mirrors⟩ :=
      Line.Mirrors.begin.run provider budget .begin w unbroken
    exact ⟨_, forwarded, thread, alive, posted.symm, ran,
      mirrors.agrees (sound moves) listens unbroken.outlet⟩
  · intro actions forwarded thread w' alive ran requests responses
    have sent : (Thread.run provider budget ({}, w) actions).1 = forwarded := by rw [ran]
    obtain ⟨moves, engine, posted, follows⟩ :=
      Line.Follows.begin.run provider budget w alive requests (by rwa [sent])
    rw [ran] at engine follows
    exact ⟨moves, _, Prod.ext rfl engine, follows.unbroken, posted,
      follows.mirrors.agrees follows.sound follows.listens follows.unbroken.outlet, follows.handed,
      follows.told⟩

/-! ## A question that fits and one that does not -/

def exchange : List Thread.Action :=
  [.post Worker.question, .receive, .poll 0, .poll 1, .forward]

theorem refused {request : Request} {cause : Failure} (unframed : Frame.encode request = .error cause) :
    (request, .error cause) ∈
      (Line.run (Worker.recital "x") ⟨1⟩ ({}, ()) [.post request, .send Line.openPipe]).1.writes := by
  have wrote : (Line.run (Worker.recital "x") ⟨1⟩ ({}, ()) [.post request, .send Line.openPipe]).1.writes =
      [(request, (Frame.write Line.openPipe .async 0 request).2.outcome)] := rfl
  rw [wrote, Frame.write_oversized unframed]
  exact List.mem_singleton_self _

theorem process_refines_thread_question :
    (∃ moves line, Line.run (Worker.recital "x") ⟨1⟩ ({}, ()) moves = (line, ()) ∧
      line.handed = [Worker.question] ∧
      line.told = [.response ⟨Worker.question.id, .result "x" ""⟩]) ∧
    ∃ request cause, (Line.run (Worker.recital "x") ⟨1⟩ ({}, ())
      [.post request, .send Line.openPipe]).1.reports = [.crashed (Failure.message cause)] := by
  have refines := process_refines_thread (Worker.recital "x") ⟨1⟩ ()
  constructor
  · have ran : Thread.run (Worker.recital "x") ⟨1⟩ ({}, ()) exchange =
        ([⟨Worker.question.id, .result "x" ""⟩],
          (Thread.run (Worker.recital "x") ⟨1⟩ ({}, ()) exchange).2.1, ()) := rfl
    obtain ⟨moves, line, played, -, posted, agrees, handed, told⟩ :=
      refines.followed exchange _ _ () (by simp [exchange]) ran
        (by simpa [exchange, Thread.Action.post?] using ⟨_, Worker.encode_question⟩)
        (by simpa using ⟨_, Frame.encode_eq_ok.mpr ⟨by decide, rfl⟩⟩)
    obtain ⟨waiting, -, service⟩ := agrees.service
    have running : line.worker.service.runner.halted = none :=
      (congrArg (·.runner.halted) service).symm.trans rfl
    exact ⟨moves, line, played, (handed running).trans posted, told⟩
  · obtain ⟨request, cause, unframed⟩ : ∃ request : Request, ∃ cause, Frame.encode request = .error cause :=
      ⟨⟨⟨"b"⟩, .run Worker.longText⟩, _,
        Frame.encode_of_long (by simp [Frame.Framed.record]) Worker.maxBody_lt_longText⟩
    exact ⟨request, cause, ((refines.delivers _).failed _ _ (refused unframed)).1⟩

end Sandbox.Context

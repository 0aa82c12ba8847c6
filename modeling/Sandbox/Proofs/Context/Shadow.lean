import Sandbox.Context.Thread
import Sandbox.Proofs.Context.Line

namespace Sandbox.Runner.Service

def await (s : Service) (more : List Request) : Service := { s with inbox := s.inbox ++ more }

variable {s : Service} {more : List Request}

theorem await_nil (s : Service) : s.await [] = s := by
  rw [await, List.append_nil]

theorem await_post (opened : s.closed = false) (request : Request) :
    (s.await more).post request = s.await (more ++ [request]) := by
  rw [post, if_neg (by simp [await, opened]), await, await, List.append_assoc]

theorem post_await (opened : s.closed = false) (request : Request) :
    (s.post request).await more = s.await (request :: more) := by
  rw [post, if_neg (by simp [opened]), await, await, List.append_assoc]
  rfl

theorem receive_empty (empty : s.inbox = []) (opened : s.closed = false) : s.receive = s := by
  rw [receive]
  split
  · rename_i inbox
    cases empty.symm.trans inbox
  · rw [if_neg (by simp [opened])]
  · rfl

theorem await_receive (waits : s.inbox ≠ []) : (s.await more).receive = s.receive.await more := by
  obtain ⟨runner, inbox, closed, accepting, serving, outbox, heard⟩ := s
  cases inbox with
  | nil => exact absurd rfl waits
  | cons request rest =>
    simp only [await, receive, List.cons_append]
    cases accepting with
    | false => rfl
    | true => cases runner.halted <;> rfl

end Sandbox.Runner.Service

namespace Sandbox.Context

open Client (Event)
open Runner (Service)
open Sandbox.Frame (Sink)

theorem Thread.forward_idle {t : Thread}
    (idle : t.service.runner.halted ≠ none ∨ t.service.outbox = []) : t.forward = ([], t) := by
  rw [forward]
  split
  · rename_i running outbox
    simp [running, outbox] at idle
  · rfl

section
variable {σ : Type} (provider : Engine.Provider σ) (budget : Duration)

def Thread.run : Thread × σ → List Thread.Action → List Response × Thread × σ
  | (thread, w), [] => ([], thread, w)
  | start, action :: rest =>
    let (sent, next) := Thread.step provider budget start action
    let (more, last) := run next rest
    (sent ++ more, last)

theorem Thread.run_append (start : Thread × σ) (first second : List Thread.Action) :
    Thread.run provider budget start (first ++ second) =
      ((Thread.run provider budget start first).1 ++
        (Thread.run provider budget (Thread.run provider budget start first).2 second).1,
        (Thread.run provider budget (Thread.run provider budget start first).2 second).2) := by
  induction first generalizing start with
  | nil => rfl
  | cons action rest ih => simp only [List.cons_append, Thread.run, ih, List.append_assoc]

end

def Thread.Action.post? : Thread.Action → Option Request
  | .post request => some request
  | _ => none

namespace Line

structure Unbroken (line : Line) : Prop where
  outlet : line.outlet.stopped = false
  writer : line.worker.writer = .writing

def matching? (worker : Worker.State) : Worker.Action → Option Thread.Action
  | .receive => if worker.service.inbox = [] then none else some .receive
  | .poll caller => some (.poll caller)
  | .write => some .forward
  | .deliver slot mail => some (.deliver slot mail)
  | .advance span => some (.advance span)
  | .feed _ | .close | .read | .leave => none

def shadow? (line : Line) : Move → Option Thread.Action
  | .post request => some (.post request)
  | .work action => if line.worker.exit.isSome then none else matching? line.worker action
  | .send _ | .carry _ | .hangUp | .take => none

section
variable {σ : Type} (provider : Engine.Provider σ) (budget : Duration) {line : Line}

theorem step_worker (w : σ) (move : Move) :
    (step provider budget (line, w) move).1.worker = line.worker ∨ ∃ action,
      (step provider budget (line, w) move).1.worker =
        (Worker.step provider budget (line.worker, w) action).1 := by
  cases move with
  | post request =>
    rw [step, post]
    split <;> exact .inl rfl
  | send pipe =>
    rw [step, send]
    split <;> exact .inl rfl
  | carry count => exact .inr ⟨.feed (line.transit.extract 0 count), rfl⟩
  | hangUp =>
    rw [step]
    split
    · exact .inr ⟨.close, rfl⟩
    · exact .inl rfl
  | work action =>
    rw [step]
    split
    · exact .inl rfl
    · exact .inr ⟨action, rfl⟩
  | take =>
    rw [step, take]
    split <;> exact .inl rfl

theorem unbroken_of_step {w : σ} {move : Move}
    (unbroken : Unbroken (step provider budget (line, w) move).1) : Unbroken line := by
  constructor
  · by_contra stopped
    have still := step_still provider budget (eq_true_of_ne_false stopped) w move
    exact stopped (still.outlet ▸ unbroken.outlet)
  · have writing := unbroken.writer
    rcases step_worker provider budget w move with same | ⟨action, worked⟩
    · rwa [same] at writing
    · by_contra failed
      rw [worked, ((Worker.step_leaves provider budget line.worker w action).writer failed).1] at writing
      exact failed writing

theorem unbroken_of_run (w : σ) (moves : List Move)
    (unbroken : Unbroken (run provider budget (line, w) moves).1) : Unbroken line := by
  induction moves generalizing line w with
  | nil => exact unbroken
  | cons move rest ih => exact unbroken_of_step provider budget (ih _ unbroken)

def shadows : Line × σ → List Move → List Thread.Action
  | _, [] => []
  | start, move :: rest =>
    (start.1.shadow? move).toList ++ shadows (step provider budget start move) rest

end

/-- The thread is where the line is, but for requests that have not come over and answers that have not
been taken. -/
structure Mirrors (line : Line) (thread : Thread) (forwarded : List Response) : Prop where
  alive : thread.destroyed = false
  forwarding : thread.forwarding = true
  service : ∃ waiting, line.posted = line.handed ++ waiting ∧
    thread.service = line.worker.service.await waiting
  output : Frame.Streams line.worker.output forwarded

def Keeps {σ : Type} (provider : Engine.Provider σ) (budget : Duration) (thread : Thread)
    (forwarded : List Response) (w : σ) (actions : List Thread.Action) (line : Line) (w' : σ) : Prop :=
  ∃ sent thread', Thread.run provider budget (thread, w) actions = (sent, thread', w') ∧
    Mirrors line thread' (forwarded ++ sent)

namespace Mirrors

variable {line : Line} {thread : Thread} {forwarded : List Response}

theorem begin : Mirrors {} {} [] := ⟨rfl, rfl, ⟨[], rfl, (Service.await_nil _).symm⟩, .nil⟩

theorem congr (mirrors : Mirrors line thread forwarded) {line' : Line}
    (posted : line'.posted = line.posted) (handed : line'.handed = line.handed)
    (service : line'.worker.service = line.worker.service)
    (output : line'.worker.output = line.worker.output) : Mirrors line' thread forwarded := by
  refine ⟨mirrors.alive, mirrors.forwarding, ?_, output ▸ mirrors.output⟩
  rw [posted, handed, service]
  exact mirrors.service

theorem accepting (sound : Sound line) (going : line.outlet.stopped = false) :
    line.worker.service.closed = false ∧ line.worker.service.accepting = true := by
  obtain ⟨framed, flows⟩ := sound.flows
  have opened := flows.opened (sound.reading going)
  exact ⟨opened, flows.accepting opened⟩

theorem post (mirrors : Mirrors line thread forwarded) (sound : Sound line)
    (going : line.outlet.stopped = false) (request : Request) :
    Mirrors (line.post request) (thread.post request).2 forwarded := by
  obtain ⟨waiting, split, service⟩ := mirrors.service
  have opened := (accepting sound going).1
  rw [Line.post, if_neg (by simp [going]), Thread.post, if_neg (by simp [mirrors.alive]), service,
    Service.await_post opened]
  refine ⟨mirrors.alive, mirrors.forwarding, ⟨waiting ++ [request], ?_, rfl⟩, mirrors.output⟩
  rw [split, List.append_assoc]

theorem lasts (mirrors : Mirrors line thread forwarded) (sound : Sound line)
    (going : line.outlet.stopped = false) : thread.ended = false := by
  obtain ⟨waiting, -, service⟩ := mirrors.service
  simp [Thread.ended, service, Service.await, (accepting sound going).2]

theorem read (mirrors : Mirrors line thread forwarded) (sound : Sound line)
    (going : line.outlet.stopped = false)
    (handed : line.handed ++ (line.worker.takes? .read).toList <+: line.posted)
    (reading : (Worker.read line.worker).reader = .reading) :
    Mirrors
      { line with
        worker := Worker.read line.worker
        handed := line.handed ++ (line.worker.takes? .read).toList } thread forwarded := by
  obtain ⟨waiting, split, service⟩ := mirrors.service
  have opened := (accepting sound going).1
  rw [Worker.State.takes?] at handed ⊢
  rw [Worker.read] at reading ⊢
  split
  · rename_i may
    rw [if_pos may] at handed reading
    generalize Frame.readFrame (α := Request) (.ofBytes line.worker.input) .async line.worker.taken = found
      at handed reading ⊢
    obtain ⟨request | cause | _, stop⟩ := found
    · obtain ⟨later, rest⟩ := handed
      obtain rfl : request :: later = waiting := by
        refine List.append_cancel_left (Eq.trans ?_ split)
        rw [← rest, List.append_assoc]
        rfl
      refine ⟨mirrors.alive, mirrors.forwarding, ⟨later, ?_, ?_⟩, mirrors.output⟩
      · exact rest.symm
      · rw [service, Service.post_await opened]
    · cases reading
    · cases reading
  · rw [Option.toList_none, List.append_nil]
    exact mirrors

theorem receive (mirrors : Mirrors line thread forwarded) (sound : Sound line)
    (going : line.outlet.stopped = false) (waits : line.worker.service.inbox ≠ []) :
    Mirrors { line with worker := { line.worker with service := line.worker.service.receive } }
      thread.receive forwarded := by
  have lasts := mirrors.lasts sound going
  obtain ⟨waiting, split, service⟩ := mirrors.service
  rw [Thread.receive, if_neg (by simp [lasts]), service, Service.await_receive waits]
  exact ⟨mirrors.alive, mirrors.forwarding, ⟨waiting, split, rfl⟩, mirrors.output⟩

theorem onRunner (mirrors : Mirrors line thread forwarded)
    (change : Runner.State → Runner.State) :
    Mirrors { line with worker := { line.worker with service := line.worker.service.onRunner change } }
      (thread.onRunner change) forwarded := by
  obtain ⟨waiting, split, service⟩ := mirrors.service
  refine ⟨mirrors.alive, mirrors.forwarding, ⟨waiting, split, ?_⟩, mirrors.output⟩
  rw [Thread.onRunner, service]
  rfl

theorem poll (mirrors : Mirrors line thread forwarded) (sound : Sound line)
    (going : line.outlet.stopped = false) {σ : Type} (provider : Engine.Provider σ)
    (budget : Duration) (w : σ) (caller : Nat) :
    Mirrors
      { line with
        worker :=
          { line.worker with
            service := (line.worker.service.poll provider budget w caller).1 } }
      (thread.poll provider budget w caller).1 forwarded ∧
      (thread.poll provider budget w caller).2 =
        (line.worker.service.poll provider budget w caller).2 := by
  have lasts := mirrors.lasts sound going
  obtain ⟨waiting, split, service⟩ := mirrors.service
  rw [Thread.poll, if_neg (by simp [lasts]), service]
  exact ⟨⟨mirrors.alive, mirrors.forwarding, ⟨waiting, split, rfl⟩, mirrors.output⟩, rfl⟩

theorem forward (mirrors : Mirrors line thread forwarded) (writing : line.worker.writer = .writing)
    (fine : (Worker.write line.worker).writer = .writing) (stays : line.worker.exit = none) :
    Mirrors { line with worker := Worker.write line.worker } thread.forward.2
      (forwarded ++ thread.forward.1) := by
  obtain ⟨waiting, split, service⟩ := mirrors.service
  have halts : thread.service.runner.halted = line.worker.service.runner.halted := by
    rw [service, Service.await]
  have answers : thread.service.outbox = line.worker.service.outbox := by rw [service, Service.await]
  by_cases idle : line.worker.service.runner.halted ≠ none ∨ line.worker.service.outbox = []
  · rw [Worker.write_idle idle, Thread.forward_idle (by rwa [halts, answers]), List.append_nil]
    exact mirrors
  · obtain ⟨running, pending⟩ := not_or.mp idle
    have running := not_not.mp running
    obtain ⟨response, rest, outbox⟩ := List.exists_cons_of_ne_nil pending
    cases encoded : Frame.encode response with
    | ok body =>
      simp only [Worker.write, Thread.forward, writing, stays, halts, answers, running, outbox, encoded,
        mirrors.forwarding, mirrors.alive, Bool.false_eq_true, if_false]
      refine ⟨rfl, rfl, ⟨waiting, split, ?_⟩, mirrors.output.concat encoded⟩
      rw [service]
      rfl
    | error cause => simp [Worker.write, writing, stays, running, outbox, encoded] at fine

section
variable {σ : Type} (provider : Engine.Provider σ) (budget : Duration)

theorem keeps (mirrors : Mirrors line thread forwarded) (w : σ) :
    Keeps provider budget thread forwarded w [] line w :=
  ⟨[], thread, rfl, by rwa [List.append_nil]⟩

theorem keeps_step {thread' : Thread} (mirrors : Mirrors line thread' forwarded) {w w' : σ}
    {action : Thread.Action} (steps : Thread.step provider budget (thread, w) action = ([], thread', w')) :
    Keeps provider budget thread forwarded w [action] line w' := by
  refine ⟨[], thread', ?_, by rwa [List.append_nil]⟩
  rw [Thread.run, steps]
  rfl

theorem worked {worker : Worker.State} (mirrors : Mirrors { line with worker } thread forwarded) (w : σ)
    (action : Worker.Action) (silent : line.worker.takes? action = none)
    (same : (Worker.step provider budget (line.worker, w) action).1.service = worker.service ∧
      (Worker.step provider budget (line.worker, w) action).1.output = worker.output) :
    Mirrors (line.work provider budget w action).1 thread forwarded := by
  refine mirrors.congr rfl ?_ same.1 same.2
  simp only [Line.work, silent, Option.toList_none, List.append_nil]

theorem work (mirrors : Mirrors line thread forwarded) (sound : Sound line) (w : σ)
    {action : Worker.Action} (own : action.fromHost = false)
    (sound' : Sound (line.work provider budget w action).1)
    (unbroken : Unbroken (line.work provider budget w action).1) :
    Keeps provider budget thread forwarded w (line.shadow? (.work action)).toList
      (line.work provider budget w action).1 (line.work provider budget w action).2 := by
  have going : line.outlet.stopped = false := unbroken.outlet
  cases left : line.worker.exit with
  | some exit =>
    have silent : line.worker.takes? action = none := by
      cases action <;> simp [Worker.State.takes?, Worker.canRead, left]
    simp only [Line.work, shadow?, left, Option.isSome_some, if_true, silent,
      Worker.step_exited provider budget left w own, Option.toList_none, List.append_nil]
    exact mirrors.keeps provider budget w
  | none =>
    rw [shadow?, if_neg (by simp [left])]
    cases action with
    | feed bytes => cases own
    | close => cases own
    | read =>
      have most := sound'.handed.trans sound'.queued.1
      exact (mirrors.read sound going most (sound'.reading going)).keeps provider budget w
    | receive =>
      by_cases waits : line.worker.service.inbox = []
      · have still := Service.receive_empty waits (accepting sound going).1
        rw [matching?, if_pos waits]
        have same : Mirrors (line.work provider budget w .receive).1 thread forwarded :=
          mirrors.worked provider budget w .receive rfl
            (by simp [Worker.step, Worker.onService, left, still])
        exact same.keeps provider budget w
      · rw [matching?, if_neg waits]
        have received := (mirrors.receive sound going waits).worked provider budget w .receive rfl
          (by simp [Worker.step, Worker.onService, left])
        exact received.keeps_step provider budget rfl
    | poll caller =>
      obtain ⟨mirrors', engine⟩ := mirrors.poll sound going provider budget w caller
      have polled := mirrors'.worked provider budget w (.poll caller) rfl
        (by simp [Worker.step, Worker.poll, left])
      refine polled.keeps_step provider budget ?_
      simp [Thread.step, Line.work, Worker.step, Worker.poll, left, ← engine]
    | write =>
      have writing : line.worker.writer = .writing := by
        by_contra failed
        have same := (Worker.step_leaves provider budget line.worker w .write).writer failed
        exact failed (same.1.symm.trans unbroken.writer)
      refine ⟨thread.forward.1, thread.forward.2, ?_, ?_⟩
      · simp [Thread.run, Thread.step, Line.work, Worker.step, matching?]
      · exact (mirrors.forward writing unbroken.writer left).worked provider budget w .write rfl ⟨rfl, rfl⟩
    | leave =>
      have same : Mirrors (line.work provider budget w .leave).1 thread forwarded :=
        mirrors.worked provider budget w .leave rfl (by simp [Worker.step, Worker.leave, left])
      exact same.keeps provider budget w
    | deliver slot mail =>
      have delivered := (mirrors.onRunner fun r => (Runner.deliver r slot mail).2).worked provider budget w
        (.deliver slot mail) rfl (by simp [Worker.step, Worker.onService, left])
      exact delivered.keeps_step provider budget rfl
    | advance span =>
      have advanced := (mirrors.onRunner fun r => { r with now := r.now + span }).worked provider budget w
        (.advance span) rfl (by simp [Worker.step, Worker.onService, left])
      exact advanced.keeps_step provider budget rfl

theorem step (mirrors : Mirrors line thread forwarded) (sound : Sound line) (w : σ) (move : Move)
    (unbroken : Unbroken (Line.step provider budget (line, w) move).1) :
    Keeps provider budget thread forwarded w (line.shadow? move).toList
      (Line.step provider budget (line, w) move).1 (Line.step provider budget (line, w) move).2 := by
  have going := (unbroken_of_step provider budget unbroken).outlet
  cases move with
  | post request => exact (mirrors.post sound going request).keeps_step provider budget rfl
  | send pipe =>
    have sent : Mirrors (line.send pipe) thread forwarded := by
      rw [Line.send]
      split
      · exact mirrors
      · exact mirrors.congr rfl rfl rfl rfl
    exact sent.keeps provider budget w
  | carry count =>
    have fed : Mirrors (Line.step provider budget (line, w) (.carry count)).1 thread forwarded := by
      refine mirrors.congr rfl (List.append_nil _) ?_ ?_ <;>
        (simp only [Line.step, Line.work, Worker.step]; split <;> rfl)
    exact fed.keeps provider budget w
  | hangUp =>
    have off : ¬(line.outlet.stopped = true ∧ line.transit = ByteArray.empty) := by simp [going]
    rw [Line.step, if_neg off]
    exact mirrors.keeps provider budget w
  | work action =>
    have sound' := sound.step provider budget w (.work action)
    rw [Line.step] at sound' unbroken ⊢
    cases own : action.fromHost with
    | true =>
      have alone : line.shadow? (.work action) = none := by
        cases action <;> simp_all [Worker.Action.fromHost, shadow?, matching?]
      rw [alone]
      exact mirrors.keeps provider budget w
    | false =>
      rw [own] at sound' unbroken
      exact mirrors.work provider budget sound w own sound' unbroken
  | take =>
    have taken : Mirrors line.take thread forwarded := by
      obtain ⟨inlet, told, same⟩ := line.take_eq
      rw [same]
      exact mirrors.congr rfl rfl rfl rfl
    exact taken.keeps provider budget w

theorem run (mirrors : Mirrors line thread forwarded) (sound : Sound line) (w : σ) {moves : List Move}
    (unbroken : Unbroken (Line.run provider budget (line, w) moves).1) :
    Keeps provider budget thread forwarded w (shadows provider budget (line, w) moves)
      (Line.run provider budget (line, w) moves).1 (Line.run provider budget (line, w) moves).2 := by
  induction moves generalizing line thread forwarded w with
  | nil => exact mirrors.keeps provider budget w
  | cons move rest ih =>
    have first := unbroken_of_run provider budget _ rest unbroken
    obtain ⟨sent, thread', ran, mirrors'⟩ := mirrors.step provider budget sound w move first
    obtain ⟨more, thread'', ran', mirrors''⟩ :=
      ih mirrors' (sound.step provider budget w move) _ unbroken
    refine ⟨sent ++ more, thread'', ?_, ?_⟩
    · rw [shadows, Thread.run_append, ran]
      exact congrArg (fun result => (sent ++ result.1, result.2)) ran'
    · rw [← List.append_assoc]
      exact mirrors''

end

end Mirrors

section
variable {σ : Type} (provider : Engine.Provider σ) (budget : Duration) {line : Line}

theorem shadow?_alive (move : Move) : line.shadow? move ≠ some .destroy := by
  cases move with
  | work action =>
    rw [shadow?]
    split
    · nofun
    · cases action <;> simp [matching?]
  | _ => nofun

theorem step_posted (going : line.outlet.stopped = false) (w : σ) (move : Move) :
    (step provider budget (line, w) move).1.posted =
      line.posted ++ (line.shadow? move).toList.filterMap Thread.Action.post? := by
  cases move with
  | post request => simp [step, post, going, shadow?, Thread.Action.post?]
  | send pipe =>
    rw [step, send]
    split <;> simp [shadow?]
  | carry count => simp [step, work, shadow?]
  | hangUp => simp [step, going, shadow?]
  | work action =>
    have silent : (line.shadow? (.work action)).toList.filterMap Thread.Action.post? = [] := by
      rw [shadow?]
      split
      · rfl
      · cases action <;> simp [matching?, Thread.Action.post?]
    rw [silent, List.append_nil, step]
    split <;> rfl
  | take =>
    rw [step, take]
    split <;> simp [shadow?]

theorem shadows_posts {w : σ} {moves : List Move}
    (unbroken : Unbroken (run provider budget (line, w) moves).1) :
    .destroy ∉ shadows provider budget (line, w) moves ∧
      (run provider budget (line, w) moves).1.posted =
        line.posted ++ (shadows provider budget (line, w) moves).filterMap Thread.Action.post? := by
  induction moves generalizing line w with
  | nil => exact ⟨nofun, (List.append_nil _).symm⟩
  | cons move rest ih =>
    have first := unbroken_of_run provider budget _ rest unbroken
    obtain ⟨alive, posted⟩ := @ih (step provider budget (line, w) move).1
      (step provider budget (line, w) move).2 unbroken
    constructor
    · intro destroyed
      rcases List.mem_append.mp destroyed with now | later
      · exact shadow?_alive move (Option.mem_toList.mp now)
      · exact alive later
    · rw [shadows, List.filterMap_append, ← List.append_assoc,
        ← step_posted provider budget (unbroken_of_step provider budget first).outlet w move]
      exact posted

end

end Line

end Sandbox.Context

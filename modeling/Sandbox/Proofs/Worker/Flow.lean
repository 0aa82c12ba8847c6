import Sandbox.Proofs.Frame.Stream
import Sandbox.Proofs.Runner.Replies
import Sandbox.Worker.Basic

/-!
The way of requests and answers through a worker. What is read is taken by the service, and what the
service replies is written, unless an answer could not be framed: that one is lost with all others.
-/

namespace Sandbox.Worker

open Runner (Service)

def State.takes? (s : State) : Action → Option Request
  | .read =>
    if canRead s then
      match (Frame.readFrame (.ofBytes s.input) .async s.taken).1 with
      | .message request => some request
      | _ => none
    else none
  | _ => none

section
variable {σ : Type} (provider : Engine.Provider σ) (budget : Duration)

def requestsRead : State × σ → List Action → List Request
  | _, [] => []
  | start, action :: rest =>
    (start.1.takes? action).toList ++ requestsRead (step provider budget start action) rest

end

theorem reading_of_canRead {s : State} (may : canRead s = true) : s.reader = .reading := by
  simp only [canRead, decide_eq_true_eq] at may
  exact may.1

theorem read_reader {s : State} {request : Request} {stop : Nat}
    (found : Frame.readFrame (.ofBytes s.input) .async s.taken = (.message request, stop)) :
    (read s).reader = s.reader := by
  rw [read]
  split
  · simp only [found]
  · rfl

theorem reading_of_read {s : State} (reading : (read s).reader = .reading) : s.reader = .reading := by
  rw [read] at reading
  split at reading
  · exact reading_of_canRead ‹_›
  · exact reading

theorem write_idle {s : State} (idle : s.service.runner.halted ≠ none ∨ s.service.outbox = []) :
    write s = s := by
  rw [write]
  split
  · rename_i running outbox
    simp [running, outbox] at idle
  · rfl

/-- What was read goes to the service, and what that replies goes to the output, as long as it can
be framed. -/
structure Flows (taken : List Request) (written : List Response) (s : State) : Prop where
  takes : s.service.Takes taken
  opened : s.reader = .reading → s.service.closed = false
  accepting : s.service.closed = false → s.service.accepting = true
  output : Frame.Streams s.output written
  writing : s.writer = .writing → s.service.heard = true ∧
    (written ++ s.service.outbox).Perm s.service.runner.replies
  failed : s.writer ≠ .writing → s.service.heard = false ∧ s.service.outbox = [] ∧
    ∃ lost cause, Frame.encode lost = .error cause ∧
      (lost :: written).Subperm s.service.runner.replies

namespace Flows

variable {taken : List Request} {written : List Response} {s : State}

theorem begin : Flows [] [] {} :=
  ⟨.begin, fun _ => rfl, fun _ => rfl, .nil, fun _ => ⟨rfl, .rfl⟩, fun failed => absurd rfl failed⟩

theorem stopped (flows : Flows taken written s) (position : Nat) {reader : Reader}
    (stops : reader ≠ .reading) :
    Flows taken written { s with taken := position, reader, service := s.service.close } := by
  refine ⟨flows.takes.congr rfl rfl rfl, fun reading => absurd reading stops, fun opened => ?_,
    flows.output, flows.writing, flows.failed⟩
  cases opened

theorem read (flows : Flows taken written s) :
    Flows (taken ++ (s.takes? .read).toList) written (read s) := by
  rw [Worker.read, State.takes?]
  split
  · rename_i may
    have opened := flows.opened (reading_of_canRead may)
    rcases Frame.readFrame (.ofBytes s.input) .async s.taken with ⟨request | cause | _, stop⟩
    · have takes := flows.takes.post request opened
      have posted : s.service.post request =
          { s.service with inbox := s.service.inbox ++ [request] } := by
        rw [Service.post, if_neg (by simp [opened])]
      simp only [posted] at takes ⊢
      exact ⟨takes, flows.opened, flows.accepting, flows.output, flows.writing, flows.failed⟩
    · rw [Option.toList_none, List.append_nil]
      exact flows.stopped stop (by simp)
    · rw [Option.toList_none, List.append_nil]
      exact flows.stopped stop (by simp)
  · rw [Option.toList_none, List.append_nil]
    exact flows

theorem onService (flows : Flows taken written s) (change : Service → Service)
    (takes : (change s.service).Takes taken)
    (closed : (change s.service).closed = s.service.closed)
    (accepting : s.service.closed = false → (change s.service).accepting = true)
    (outbox : (change s.service).outbox = s.service.outbox)
    (heard : (change s.service).heard = s.service.heard)
    (replies : (change s.service).runner.replies = s.service.runner.replies) :
    Flows taken written (onService s change) := by
  rw [Worker.onService]
  split
  · exact flows
  · refine ⟨takes, fun reading => closed.trans (flows.opened reading),
      fun opened => accepting (closed.symm.trans opened), flows.output, ?_, ?_⟩
    · intro writing
      obtain ⟨hears, balance⟩ := flows.writing writing
      exact ⟨heard.trans hears, by rwa [outbox, replies]⟩
    · intro failed
      obtain ⟨deaf, empty, lost⟩ := flows.failed failed
      exact ⟨heard.trans deaf, outbox.trans empty, by rwa [replies]⟩

theorem receive (flows : Flows taken written s) :
    Flows taken written (Worker.onService s Service.receive) := by
  obtain ⟨takes, replies⟩ := flows.takes.receive
  have frame : s.service.receive.closed = s.service.closed ∧
      (s.service.closed = false → s.service.receive.accepting = true) ∧
      s.service.receive.outbox = s.service.outbox ∧
      s.service.receive.heard = s.service.heard := by
    rw [Service.receive]
    split
    · exact ⟨rfl, flows.accepting, rfl, rfl⟩
    · split
      · rename_i closed
        exact ⟨rfl, fun opened => by simp [opened] at closed, rfl, rfl⟩
      · exact ⟨rfl, flows.accepting, rfl, rfl⟩
    · exact ⟨rfl, flows.accepting, rfl, rfl⟩
  obtain ⟨closed, accepting, outbox, heard⟩ := frame
  exact flows.onService _ takes closed accepting outbox heard replies

theorem onRunner (flows : Flows taken written s) (change : Runner.State → Runner.State)
    (calls : (change s.service.runner).calls = s.service.runner.calls) :
    Flows taken written (Worker.onService s (·.onRunner change)) := by
  have replies : (change s.service.runner).replies = s.service.runner.replies := by
    rw [Runner.State.replies, calls]
    rfl
  exact flows.onService (·.onRunner change) (flows.takes.congr rfl calls rfl) rfl
    flows.accepting rfl rfl replies

theorem poll (flows : Flows taken written s) {σ : Type} (provider : Engine.Provider σ)
    (budget : Duration) (w : σ) (caller : Nat) :
    Flows taken written (Worker.poll provider budget s w caller).1 := by
  rw [Worker.poll]
  split
  · exact flows
  · obtain ⟨runner, w', sent, eq, takes, grown⟩ := flows.takes.poll provider budget w caller
    rw [eq]
    refine ⟨takes, flows.opened, flows.accepting, flows.output, ?_, ?_⟩
    · intro writing
      obtain ⟨hears, balance⟩ := flows.writing writing
      refine ⟨hears, ?_⟩
      simp only [hears, if_true]
      rw [← List.append_assoc]
      exact (balance.append_right sent).trans grown.symm
    · intro failed
      obtain ⟨deaf, empty, lost, cause, unframed, part⟩ := flows.failed failed
      refine ⟨deaf, by simp [deaf, empty], lost, cause, unframed, ?_⟩
      exact part.trans ((List.sublist_append_left ..).subperm.trans grown.symm.subperm)

theorem write (flows : Flows taken written s) :
    ∃ more, Flows taken (written ++ more) (Worker.write s) := by
  rw [Worker.write]
  split
  · rename_i response rest writer running going outbox
    obtain ⟨hears, balance⟩ := flows.writing writer
    rw [outbox] at balance
    cases encoded : Frame.encode response with
    | ok body =>
      refine ⟨[response], flows.takes.congr rfl rfl rfl, flows.opened, flows.accepting,
        flows.output.concat encoded, fun _ => ⟨hears, ?_⟩, fun failed => absurd writer failed⟩
      rw [List.append_assoc]
      exact balance
    | error cause =>
      refine ⟨[], flows.takes.congr rfl rfl rfl, flows.opened, flows.accepting, ?_, nofun,
        fun _ => ⟨rfl, rfl, response, cause, encoded, ?_⟩⟩
      · rw [List.append_nil]
        exact flows.output
      · rw [List.append_nil]
        have part : (written ++ [response]).Subperm s.service.runner.replies :=
          (List.Sublist.append_left (by simp) written).subperm.trans balance.subperm
        exact (List.perm_append_singleton response written).symm.subperm.trans part
  · exact ⟨[], by rwa [List.append_nil]⟩

theorem step (flows : Flows taken written s) {σ : Type} (provider : Engine.Provider σ)
    (budget : Duration) (w : σ) (action : Action) :
    ∃ more, Flows (taken ++ (s.takes? action).toList) (written ++ more)
      (Worker.step provider budget (s, w) action).1 := by
  have silent : ∀ s' : State, Flows taken written s' →
      ∃ more, Flows (taken ++ (none : Option Request).toList) (written ++ more) s' := by
    intro s' flows'
    refine ⟨[], ?_⟩
    rwa [Option.toList_none, List.append_nil, List.append_nil]
  cases action with
  | read =>
    refine ⟨[], ?_⟩
    rw [List.append_nil]
    exact flows.read
  | write =>
    obtain ⟨more, wrote⟩ := flows.write
    refine ⟨more, ?_⟩
    rw [show s.takes? .write = none from rfl, Option.toList_none, List.append_nil]
    exact wrote
  | feed bytes =>
    refine silent _ ?_
    rw [Worker.step]
    split
    · exact flows
    · exact ⟨flows.takes, flows.opened, flows.accepting, flows.output, flows.writing, flows.failed⟩
  | close =>
    exact silent _
      ⟨flows.takes, flows.opened, flows.accepting, flows.output, flows.writing, flows.failed⟩
  | leave =>
    refine silent _ ?_
    rw [Worker.step, Worker.leave]
    split
    · exact flows
    · exact ⟨flows.takes, flows.opened, flows.accepting, flows.output, flows.writing, flows.failed⟩
  | receive => exact silent _ flows.receive
  | poll caller => exact silent _ (flows.poll provider budget w caller)
  | deliver slot mail =>
    exact silent _ (flows.onRunner _ (Runner.deliver_calls s.service.runner slot mail).1)
  | advance span => exact silent _ (flows.onRunner _ rfl)

theorem run (flows : Flows taken written s) {σ : Type} (provider : Engine.Provider σ)
    (budget : Duration) (w : σ) (actions : List Action) :
    ∃ more, Flows (taken ++ requestsRead provider budget (s, w) actions) (written ++ more)
      (Worker.run provider budget (s, w) actions).1 := by
  induction actions generalizing taken written s w with
  | nil =>
    refine ⟨[], ?_⟩
    rw [requestsRead, List.append_nil, List.append_nil]
    exact flows
  | cons action rest ih =>
    obtain ⟨more, stepped⟩ := flows.step provider budget w action
    obtain ⟨more', ran⟩ := ih stepped (Worker.step provider budget (s, w) action).2
    refine ⟨more ++ more', ?_⟩
    rw [requestsRead, ← List.append_assoc, ← List.append_assoc]
    exact ran

end Flows

/-! ## What an action leaves alone -/

def Action.fromHost : Action → Bool
  | .feed _ | .close => true
  | _ => false

structure Leaves (s : State) (action : Action) (s' : State) : Prop where
  input : ∃ more, s'.input = s.input ++ more
  reader : action ≠ .read → s'.reader = s.reader ∧ s'.taken = s.taken
  writer : s.writer ≠ .writing → s'.writer = s.writer ∧ s'.output = s.output

theorem Leaves.of_eq {s s' : State} {action : Action} (input : s'.input = s.input)
    (reader : s'.reader = s.reader) (taken : s'.taken = s.taken) (writer : s'.writer = s.writer)
    (output : s'.output = s.output) : Leaves s action s' :=
  ⟨⟨ByteArray.empty, by rw [input, ByteArray.append_empty]⟩, fun _ => ⟨reader, taken⟩,
    fun _ => ⟨writer, output⟩⟩

section
variable {σ : Type} (provider : Engine.Provider σ) (budget : Duration)

theorem step_leaves (s : State) (w : σ) (action : Action) :
    Leaves s action (step provider budget (s, w) action).1 := by
  have same : Leaves s action s := .of_eq rfl rfl rfl rfl rfl
  cases action with
  | feed bytes =>
    rw [step]
    split
    · exact same
    · exact ⟨⟨bytes, rfl⟩, fun _ => ⟨rfl, rfl⟩, fun _ => ⟨rfl, rfl⟩⟩
  | read =>
    rw [step, read]
    split
    · have input : ∃ more, s.input = s.input ++ more := same.input
      rcases Frame.readFrame (.ofBytes s.input) .async s.taken with ⟨_ | _ | _, stop⟩ <;>
        exact ⟨input, fun other => absurd rfl other, fun _ => ⟨rfl, rfl⟩⟩
    · exact same
  | write =>
    rw [step, write]
    split
    · rename_i writing running going outbox
      split <;> exact ⟨same.input, fun _ => ⟨rfl, rfl⟩, fun failed => absurd writing failed⟩
    · exact same
  | poll caller =>
    rw [step, poll]
    split
    · exact same
    · exact .of_eq rfl rfl rfl rfl rfl
  | close => exact .of_eq rfl rfl rfl rfl rfl
  | leave =>
    rw [step, leave]
    split
    · exact same
    · exact .of_eq rfl rfl rfl rfl rfl
  | receive | deliver slot mail | advance span =>
    rw [step, onService]
    split
    · exact same
    · exact .of_eq rfl rfl rfl rfl rfl

structure Emits (s : State) (action : Action) (s' : State) : Prop where
  input : action.fromHost = false → s'.input = s.input ∧ s'.closed = s.closed
  output : ∃ bytes responses, s'.output = s.output ++ bytes ∧
    Frame.Streams bytes (responses : List Response) ∧ (s.exit ≠ none → bytes = ByteArray.empty)
  writer : action ≠ .write → s'.writer = s.writer ∧ s'.output = s.output
  exit : action ≠ .leave → s'.exit = s.exit

theorem Emits.of_eq {s s' : State} {action : Action}
    (input : action.fromHost = false → s'.input = s.input ∧ s'.closed = s.closed)
    (output : s'.output = s.output) (writer : action ≠ .write → s'.writer = s.writer)
    (exit : action ≠ .leave → s'.exit = s.exit) : Emits s action s' :=
  ⟨input, ⟨ByteArray.empty, [], by rw [output, ByteArray.append_empty], .nil, fun _ => rfl⟩,
    fun other => ⟨writer other, output⟩, exit⟩

theorem step_emits (s : State) (w : σ) (action : Action) :
    Emits s action (step provider budget (s, w) action).1 := by
  have same : Emits s action s := .of_eq (fun _ => ⟨rfl, rfl⟩) rfl (fun _ => rfl) fun _ => rfl
  cases action with
  | feed bytes =>
    rw [step]
    split
    · exact same
    · exact .of_eq nofun rfl (fun _ => rfl) fun _ => rfl
  | close => exact .of_eq nofun rfl (fun _ => rfl) fun _ => rfl
  | read =>
    rw [step, read]
    split
    · split <;> exact .of_eq (fun _ => ⟨rfl, rfl⟩) rfl (fun _ => rfl) fun _ => rfl
    · exact same
  | write =>
    rw [step, write]
    split
    · rename_i response rest writing staying running outbox
      split
      · rename_i body encoded
        exact ⟨fun _ => ⟨rfl, rfl⟩, ⟨Frame.enclose body, [response], rfl, .one encoded,
          fun left => absurd staying left⟩, fun other => absurd rfl other, fun _ => rfl⟩
      · exact .of_eq (fun _ => ⟨rfl, rfl⟩) rfl (fun other => absurd rfl other) fun _ => rfl
    · exact same
  | poll caller =>
    rw [step, poll]
    split
    · exact same
    · exact .of_eq (fun _ => ⟨rfl, rfl⟩) rfl (fun _ => rfl) fun _ => rfl
  | leave =>
    rw [step, leave]
    split
    · exact same
    · exact .of_eq (fun _ => ⟨rfl, rfl⟩) rfl (fun _ => rfl) fun stays => absurd rfl stays
  | receive | deliver slot mail | advance span =>
    rw [step, onService]
    split
    · exact same
    · exact .of_eq (fun _ => ⟨rfl, rfl⟩) rfl (fun _ => rfl) fun _ => rfl

theorem step_exited {s : State} {exit : Exit} (left : s.exit = some exit) (w : σ) {action : Action}
    (own : action.fromHost = false) : step provider budget (s, w) action = (s, w) := by
  cases action with
  | feed bytes => cases own
  | close => cases own
  | read =>
    have idle : canRead s = false := by simp [canRead, left]
    rw [step, read, if_neg (by simp [idle])]
  | write =>
    rw [step, write]
    split
    · rename_i going _ _
      cases left.symm.trans going
    · rfl
  | poll caller => simp [step, poll, left]
  | leave => simp only [step, leave, left]
  | receive | deliver slot mail | advance span => simp [step, onService, left]

theorem step_lives {taken : List Request} {written : List Response} {s : State}
    (flows : Flows taken written s) (reading : s.reader = .reading)
    (lives : s.service.runner.halted = none → s.exit = none) (w : σ) {action : Action}
    (own : action.fromHost = false)
    (running : (step provider budget (s, w) action).1.service.runner.halted = none) :
    (step provider budget (s, w) action).1.exit = none := by
  cases left : s.exit with
  | some exit =>
    rw [step_exited provider budget left w own] at running ⊢
    exact lives running
  | none =>
    by_cases leaves : action = .leave
    · subst leaves
      simp only [step, leave, left] at running ⊢
      simp [ending?, running, flows.accepting (flows.opened reading)]
    · exact ((step_emits provider budget s w action).exit leaves).trans left

theorem step_stays {s : State} {exit : Exit} (left : s.exit = some exit) (w : σ) (action : Action) :
    (step provider budget (s, w) action).1.exit = some exit := by
  by_cases leaves : action = .leave
  · rw [leaves, step_exited provider budget left w rfl, left]
  · exact ((step_emits provider budget s w action).exit leaves).trans left

theorem step_halted {s : State} {how : Engine.Halt} (halted : s.service.runner.halted = some how)
    (w : σ) (action : Action) :
    (step provider budget (s, w) action).1.service.runner.halted = some how := by
  cases action with
  | feed bytes =>
    rw [step]
    split <;> exact halted
  | close => exact halted
  | read =>
    rw [step, read, if_neg (by simp [canRead, halted]), halted]
  | receive =>
    rw [step, onService, Service.receive_halted halted]
    split <;> exact halted
  | poll caller =>
    have still : Runner.poll provider budget s.service.runner w caller = (s.service.runner, w) := by
      simp only [Runner.poll, halted]
    rw [step, poll]
    split
    · exact halted
    · simp only [Service.poll, still, halted]
  | write => rw [step, write_idle (.inl (by simp [halted])), halted]
  | leave =>
    rw [step, leave]
    split <;> exact halted
  | deliver slot mail =>
    rw [step, onService]
    split
    · exact halted
    · exact (Runner.deliver_calls s.service.runner slot mail).2.2.trans halted
  | advance span =>
    rw [step, onService]
    split <;> exact halted

theorem running_of_step (s : State) (w : σ) (action : Action)
    (running : (step provider budget (s, w) action).1.service.runner.halted = none) :
    s.service.runner.halted = none := by
  by_contra halted
  obtain ⟨how, halted⟩ := Option.ne_none_iff_exists'.mp halted
  cases running.symm.trans (step_halted provider budget halted w action)

theorem run_input (s : State) (w : σ) (actions : List Action) :
    ∃ more, (run provider budget (s, w) actions).1.input = s.input ++ more := by
  induction actions generalizing s w with
  | nil => exact ⟨ByteArray.empty, ByteArray.append_empty.symm⟩
  | cons action rest ih =>
    obtain ⟨more, grown⟩ := (step_leaves provider budget s w action).input
    obtain ⟨more', grown'⟩ := ih (step provider budget (s, w) action).1
      (step provider budget (s, w) action).2
    refine ⟨more ++ more', ?_⟩
    rw [← ByteArray.append_assoc, ← grown]
    exact grown'

theorem run_failed {s : State} (w : σ) (failed : s.writer ≠ .writing) (actions : List Action) :
    (run provider budget (s, w) actions).1.output = s.output := by
  induction actions generalizing s w with
  | nil => rfl
  | cons action rest ih =>
    obtain ⟨writer, output⟩ := (step_leaves provider budget s w action).writer failed
    exact (ih _ (writer ▸ failed)).trans output

end

end Sandbox.Worker

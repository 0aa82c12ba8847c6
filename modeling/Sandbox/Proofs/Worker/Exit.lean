import Sandbox.Proofs.Frame.Intake
import Sandbox.Proofs.Worker.Answering

namespace Sandbox.Worker

open Runner (Service)

/-! ## What an exit means -/

structure Steady (s : State) : Prop where
  running : s.service.runner.halted = none
  drained : s.service.accepting = false → s.service.closed = true ∧ s.service.inbox = []
  stands : ∀ exit, s.exit = some exit → ending? s = some exit

namespace Steady

variable {s : State}

theorem begin : Steady {} := ⟨rfl, nofun, nofun⟩

theorem feed (steady : Steady s) (input : ByteArray) : Steady { s with input } :=
  ⟨steady.running, steady.drained, steady.stands⟩

theorem active (steady : Steady s) {s' : State} (going : s'.exit = none)
    (halted : s'.service.runner.halted = s.service.runner.halted)
    (drained : s'.service.accepting = false → s'.service.closed = true ∧ s'.service.inbox = []) :
    Steady s' :=
  ⟨halted.trans steady.running, drained, fun exit left => by simp [going] at left⟩

theorem onService (steady : Steady s) (change : Service → Service)
    (halted : (change s.service).runner.halted = s.service.runner.halted)
    (drained : (change s.service).accepting = false →
      (change s.service).closed = true ∧ (change s.service).inbox = []) :
    Steady (Worker.onService s change) := by
  unfold Worker.onService
  split
  · exact steady
  · rename_i going
    exact steady.active (by simpa using going) halted drained

theorem onRunner (steady : Steady s) (change : Runner.State → Runner.State)
    (halted : (change s.service.runner).halted = s.service.runner.halted) :
    Steady (Worker.onService s (·.onRunner change)) :=
  steady.onService (·.onRunner change) halted steady.drained

theorem posted (steady : Steady s) (going : s.exit = none) (taken : Nat) (request : Request) :
    Steady { s with taken, service := s.service.post request } := by
  by_cases closed : s.service.closed = true
  · have refused : s.service.post request = s.service := if_pos closed
    rw [refused]
    exact steady.active going rfl steady.drained
  · have queued : s.service.post request =
        { s.service with inbox := s.service.inbox ++ [request] } := if_neg closed
    rw [queued]
    exact steady.active going rfl fun stopped => absurd (steady.drained stopped).1 closed

theorem stopped (steady : Steady s) (going : s.exit = none) (taken : Nat) (reader : Reader) :
    Steady { s with taken, reader, service := s.service.close } :=
  steady.active going rfl fun drained => ⟨rfl, (steady.drained drained).2⟩

theorem read (steady : Steady s) : Steady (Worker.read s) := by
  unfold Worker.read
  split
  · rename_i may
    have going : s.exit = none := by
      simp only [canRead, decide_eq_true_eq] at may
      exact may.2.1
    rcases Frame.readFrame (.ofBytes s.input) .async s.taken with ⟨request | cause | _, stop⟩
    · exact steady.posted going stop request
    · exact steady.stopped going stop _
    · exact steady.stopped going stop _
  · exact steady

theorem receive (steady : Steady s) : Steady (Worker.onService s Service.receive) := by
  apply steady.onService
  · unfold Service.receive
    split
    · rfl
    · split <;> rfl
    · rfl
  · intro stopped
    unfold Service.receive at stopped ⊢
    split at stopped
    · simp_all
    · rename_i accepting running empty
      split at stopped
      · rename_i closed
        rw [if_pos closed]
        exact ⟨closed, empty⟩
      · exact nomatch accepting.symm.trans stopped
    · exact steady.drained stopped

theorem write (steady : Steady s) : Steady (Worker.write s) := by
  unfold Worker.write
  split
  · rename_i going running outbox
    split
    · exact steady.active going rfl steady.drained
    · exact steady.active going rfl steady.drained
  · exact steady

theorem leave (steady : Steady s) : Steady (Worker.leave s) := by
  unfold Worker.leave
  split
  · exact steady
  · exact ⟨steady.running, steady.drained, fun exit left => left⟩

section
variable {σ : Type} {provider : Engine.Provider σ} {budget : Duration}
  (returns : ∀ w engine code how, (provider.execute w engine code).1 ≠ .halt how)
include returns

theorem poll (steady : Steady s) (w : σ) (caller : Nat) :
    Steady (Worker.poll provider budget s w caller).1 := by
  unfold Worker.poll
  split
  · exact steady
  · rename_i going
    apply steady.active (by simpa using going)
    · exact Runner.poll_halted returns ..
    · exact steady.drained

theorem step (steady : Steady s) (w : σ) (action : Action) :
    Steady (Worker.step provider budget (s, w) action).1 := by
  cases action with
  | feed bytes =>
    rw [Worker.step]
    split
    · exact steady
    · exact steady.feed _
  | close => exact ⟨steady.running, steady.drained, steady.stands⟩
  | read => exact steady.read
  | receive => exact steady.receive
  | poll caller => exact steady.poll returns w caller
  | write => exact steady.write
  | leave => exact steady.leave
  | deliver slot mail =>
    exact steady.onRunner _ (Runner.deliver_calls s.service.runner slot mail).2.2
  | advance span => exact steady.onRunner _ rfl

theorem run (steady : Steady s) (w : σ) (actions : List Action) :
    Steady (Worker.run provider budget (s, w) actions).1 := by
  induction actions generalizing s w with
  | nil => exact steady
  | cons action rest ih => exact ih (steady.step returns w action) _

end

end Steady

/-! ## What was read of the input -/

def Consumes (requests : List Request) (s : State) : Prop :=
  ∃ front rest, s.input = front ++ rest ∧ Frame.Conveys front requests ∧
    (s.reader = .reading → s.taken = front.size) ∧
    (s.reader = .finished → s.closed = true ∧ rest.size < 4)

namespace Consumes

variable {requests : List Request} {s : State}

theorem begin : Consumes [] {} :=
  ⟨ByteArray.empty, ByteArray.empty, rfl, .nil, fun _ => rfl, nofun⟩

theorem congr (consumes : Consumes requests s) {s' : State} (input : s'.input = s.input)
    (reader : s'.reader = s.reader) (taken : s'.taken = s.taken) (closed : s'.closed = s.closed) :
    Consumes requests s' := by
  unfold Consumes
  rw [input, reader, taken, closed]
  exact consumes

theorem feed (consumes : Consumes requests s) (opened : s.closed = false) (bytes : ByteArray) :
    Consumes requests { s with input := s.input ++ bytes } := by
  obtain ⟨front, rest, split, conveys, position, ended⟩ := consumes
  refine ⟨front, rest ++ bytes, ?_, conveys, position, fun finished => ?_⟩
  · rw [← ByteArray.append_assoc, ← split]
  · exact nomatch opened.symm.trans (ended finished).1

theorem close (consumes : Consumes requests s) : Consumes requests { s with closed := true } := by
  obtain ⟨front, rest, split, conveys, position, ended⟩ := consumes
  exact ⟨front, rest, split, conveys, position, fun finished => ⟨rfl, (ended finished).2⟩⟩

theorem read (consumes : Consumes requests s) :
    Consumes (requests ++ (s.takes? .read).toList) (Worker.read s) := by
  obtain ⟨front, rest, split, conveys, position, ended⟩ := consumes
  rw [Worker.read, State.takes?]
  split
  · rename_i may
    have stands := position (reading_of_canRead may)
    rcases found : Frame.readFrame (.ofBytes s.input) .async s.taken with ⟨request | cause | _, stop⟩
    · rw [stands, split] at found
      obtain ⟨body, rest', rfl, bounded, decoded, behind⟩ := Frame.readFrame_message found
      refine ⟨front ++ Frame.enclose body, rest', ?_, conveys.concat bounded decoded,
        fun _ => behind, fun finished => ?_⟩
      · rw [ByteArray.append_assoc]
        exact split
      · cases (reading_of_canRead may).symm.trans finished
    · simp only [Option.toList_none, List.append_nil]
      refine ⟨front, rest, split, conveys, fun reading => ?_, fun finished => ?_⟩
      · cases reading
      · cases finished
    · have short := Frame.readFrame_finished found
      -- An open stream is only read where a whole length has arrived.
      have closed : s.closed = true := by
        simp only [canRead, Frame.arrived, decide_eq_true_eq, Bool.or_eq_true,
          Bool.and_eq_true] at may
        rcases may.2.2.2 with closed | ⟨arrived, -⟩
        · exact closed
        · omega
      have sizes := congrArg ByteArray.size split
      rw [ByteArray.size_append] at sizes
      simp only [Option.toList_none, List.append_nil]
      refine ⟨front, rest, split, conveys, fun reading => ?_, fun _ => ⟨closed, by omega⟩⟩
      cases reading
  · simp only [Option.toList_none, List.append_nil]
    exact ⟨front, rest, split, conveys, position, ended⟩

section
variable {σ : Type} (provider : Engine.Provider σ) (budget : Duration)

theorem step (consumes : Consumes requests s) (w : σ) (action : Action) :
    Consumes (requests ++ (s.takes? action).toList)
      (Worker.step provider budget (s, w) action).1 := by
  have silent : ∀ s' : State, Consumes requests s' →
      Consumes (requests ++ (none : Option Request).toList) s' := by
    intro s' consumes'
    rwa [Option.toList_none, List.append_nil]
  cases action with
  | read => exact consumes.read
  | feed bytes =>
    apply silent
    rw [Worker.step]
    split
    · exact consumes
    · rename_i opened
      exact consumes.feed (eq_false_of_ne_true opened) bytes
  | close => exact silent _ consumes.close
  | write =>
    apply silent
    rw [Worker.step, Worker.write]
    split
    · split <;> exact consumes.congr rfl rfl rfl rfl
    · exact consumes
  | leave =>
    apply silent
    rw [Worker.step, Worker.leave]
    split
    · exact consumes
    · exact consumes.congr rfl rfl rfl rfl
  | poll caller =>
    apply silent
    rw [Worker.step, Worker.poll]
    split
    · exact consumes
    · exact consumes.congr rfl rfl rfl rfl
  | receive | deliver slot mail | advance span =>
    apply silent
    rw [Worker.step, Worker.onService]
    split
    · exact consumes
    · exact consumes.congr rfl rfl rfl rfl

theorem run (consumes : Consumes requests s) (w : σ) (actions : List Action) :
    Consumes (requests ++ requestsRead provider budget (s, w) actions)
      (Worker.run provider budget (s, w) actions).1 := by
  induction actions generalizing requests s w with
  | nil =>
    rw [requestsRead, List.append_nil]
    exact consumes
  | cons action rest ih =>
    rw [requestsRead, ← List.append_assoc]
    exact ih (consumes.step provider budget w action) _

end

end Consumes

/-! ## Success -/

/-- A worker with these requests has left: with success if its reader came to the end and all of them
are answered, and with a failure otherwise. -/
structure Parting (requests : List Request) (written : List Response) (s : State) (exit : Exit) :
    Prop where
  framed : Frame.readEach (.ofBytes s.output) .async (written.length + 1) 0 =
    (written.map .message ++ [.finished], s.output.size)
  success : exit = .code 0 none ↔
    s.reader = .finished ∧ (written.map Response.id).Perm (requests.map Request.id)
  complete : exit = .code 0 none → s.closed = true ∧ ∃ frames rest,
    s.input = frames ++ rest ∧ Frame.Conveys frames requests ∧ rest.size < 4

theorem Flows.settled {requests : List Request} {written : List Response} {s : State}
    (flows : Flows requests written s) (steady : Steady s) {exit : Exit}
    (left : ending? s = some exit) : exit = .code 0 none ↔
      s.reader = .finished ∧ (written.map Response.id).Perm (requests.map Request.id) := by
  have answering := flows.answering
  simp only [ending?, steady.running] at left
  split at left
  · cases left
  rename_i stopped
  split at left
  · cases left
  · rename_i cause failed
    cases left
    simp [Worker.failed, failed]
  · rename_i cause finished failed
    cases left
    have short := (answering.lost (by simp [failed])).1
    simp only [Worker.failed, Exit.code.injEq, reduceCtorEq, and_false, false_iff, not_and]
    intro _ balance
    have lengths := balance.length_eq
    simp only [List.length_map] at lengths
    omega
  · rename_i finished writing
    split at left
    · cases left
    rename_i nothing
    cases left
    obtain ⟨silent, empty⟩ := not_or.mp nothing
    have idle : Idle s := by
      refine ⟨(steady.drained (eq_false_of_ne_true stopped)).2, ?_, not_not.mp empty⟩
      intro request active
      obtain ⟨caller, found⟩ := List.mem_iff_getElem?.mp active
      apply silent
      simp only [Service.mayAnswer, Bool.or_eq_true, List.any_eq_true]
      exact .inr ⟨caller, flows.takes.serving caller request _ found, by simp [found]⟩
    have every : ∀ response ∈ s.service.runner.replies, ∃ body,
        Frame.encode response = .ok body := by
      intro response reply
      obtain ⟨-, balance⟩ := flows.writing writing
      rw [idle.outbox, List.append_nil] at balance
      exact flows.output.encoded (balance.mem_iff.mpr reply)
    simpa [finished] using (answering.answered idle).mpr every

/-- Whatever arrives and in whatever order the tasks of a worker get on, if its engine comes back
from every snippet: it leaves with success exactly when it has read its input to the end and written
one answer for every request. Its input is then nothing but frames of these requests, up to bytes
that are too few for a length. -/
theorem success_loses_nothing {σ : Type} (provider : Engine.Provider σ) (budget : Duration)
    (returns : ∀ w engine code how, (provider.execute w engine code).1 ≠ .halt how) (w : σ)
    (actions : List Action) {exit : Exit}
    (left : (run provider budget ({}, w) actions).1.exit = some exit) :
    ∃ written, Parting (requestsRead provider budget ({}, w) actions) written
      (run provider budget ({}, w) actions).1 exit := by
  obtain ⟨written, flows⟩ := Flows.begin.run provider budget w actions
  have steady : Steady (run provider budget ({}, w) actions).1 := Steady.begin.run returns w actions
  have consumes := Consumes.begin.run provider budget w actions
  have settled := flows.settled steady (steady.stands exit left)
  refine ⟨written, flows.answering.framed, settled, fun success => ?_⟩
  obtain ⟨frames, rest, split, conveys, -, ended⟩ := consumes
  obtain ⟨closed, short⟩ := ended (settled.mp success).1
  exact ⟨closed, frames, rest, split, conveys, short⟩

/-! ## A late start

A worker is asked a question, and its input ends while the engine is still starting.
-/

section
variable {σ : Type} (provider : Engine.Provider σ) (budget : Duration)

theorem run_append (start : State × σ) (first second : List Action) :
    run provider budget start (first ++ second) =
      run provider budget (run provider budget start first) second :=
  List.foldl_append

theorem requestsRead_append (start : State × σ) (first second : List Action) :
    requestsRead provider budget start (first ++ second) = requestsRead provider budget start first ++
      requestsRead provider budget (run provider budget start first) second := by
  induction first generalizing start with
  | nil => rfl
  | cons action rest ih =>
    rw [List.cons_append, requestsRead, ih, requestsRead, List.append_assoc]
    rfl

end

def tardy : Engine.Provider Unit where
  start w _ _ := (⟨none, .ok ()⟩, w)
  execute w _ _ := (.output ⟨some "y", none⟩, w)

def tardyAnswer : Response := ⟨question.id, .result "y" ""⟩

def tardyBody : ByteArray :=
  Frame.Body.encode (Frame.Framed.layout Response) (Frame.Framed.record tardyAnswer)

theorem encode_tardyAnswer : Frame.encode tardyAnswer = .ok tardyBody :=
  Frame.encode_eq_ok.mpr ⟨by decide, rfl⟩

def asking : List Action := [.feed (Frame.enclose questionBody), .read]

def waiting : List Action := [.receive, .poll 0, .poll 1, .close]

def catchingUp : List Action :=
  [.receive, .deliver 0 (.published 0), .poll 0, .poll 1, .write, .leave]

def awaiting (input : ByteArray) : State :=
  { asked input with
    closed := true
    service :=
      { runner :=
          { turn := .taken ⟨0, 0, ⟨1⟩, none⟩
            queue := [1]
            slots := 1
            calls := [⟨.warmUp, .active⟩, ⟨.answer question, .active⟩] }
        accepting := true
        serving := [1] } }

def ended (input : ByteArray) : State :=
  { awaiting input with reader := .finished, service := (awaiting input).service.close }

theorem run_asking : ∃ input, run tardy ⟨1⟩ ({}, ()) asking = (asked input, ()) ∧
    requestsRead tardy ⟨1⟩ ({}, ()) asking = [question] := by
  obtain ⟨input, sent⟩ : ∃ input, input = Frame.enclose questionBody := ⟨_, rfl⟩
  obtain ⟨read, took⟩ := read_question sent
  have fed : step tardy ⟨1⟩ ({}, ()) (.feed (Frame.enclose questionBody)) = ({ input }, ()) := by
    simp [step, sent]
  refine ⟨input, ?_, ?_⟩
  · rw [asking, run, List.foldl_cons, fed, List.foldl_cons, step, read]
    rfl
  · rw [asking, requestsRead, fed, requestsRead, took]
    rfl

theorem run_waiting (input : ByteArray) :
    run tardy ⟨1⟩ (asked input, ()) waiting = (awaiting input, ()) ∧
      requestsRead tardy ⟨1⟩ (asked input, ()) waiting = [] :=
  ⟨rfl, rfl⟩

theorem read_awaiting (input : ByteArray) :
    read (awaiting input) = ended input ∧ (awaiting input).takes? .read = none := by
  have may : canRead (awaiting input) = true := rfl
  have drained : Frame.readFrame (α := Request) (.ofBytes (awaiting input).input) .async
      (awaiting input).taken = (.finished, (awaiting input).taken) :=
    Frame.readFrame_drained (Nat.le_refl input.size)
  constructor
  · rw [read, if_pos may]
    simp only [drained]
    rfl
  · rw [State.takes?, if_pos may]
    simp only [drained]

theorem write_framed {s : State} {response : Response} {rest : List Response} {body : ByteArray}
    (writing : s.writer = .writing) (staying : s.exit = none)
    (going : s.service.runner.halted = none) (outbox : s.service.outbox = response :: rest)
    (encoded : Frame.encode response = .ok body) :
    write s = { s with
      output := s.output ++ Frame.enclose body, service := { s.service with outbox := rest } } := by
  simp only [write, writing, staying, going, outbox, encoded]

theorem run_catchingUp (input : ByteArray) :
    (run tardy ⟨1⟩ (ended input, ()) catchingUp).1.exit = some (.code 0 none) ∧
      requestsRead tardy ⟨1⟩ (ended input, ()) catchingUp = [] := by
  let s := (run tardy ⟨1⟩ (ended input, ())
    [.receive, .deliver 0 (.published 0), .poll 0, .poll 1]).1
  have outbox : s.service.outbox = [tardyAnswer] := rfl
  have wrote := write_framed rfl rfl rfl outbox encode_tardyAnswer
  refine ⟨?_, rfl⟩
  change (leave (write s)).exit = _
  rw [wrote]
  rfl

theorem success_loses_nothing_late_start :
    (∀ w engine code how, (tardy.execute w engine code).1 ≠ .halt how) ∧
    (run tardy ⟨1⟩ ({}, ()) (asking ++ waiting)).1.closed = true ∧
    ⟨.answer question, .active⟩ ∈
      (run tardy ⟨1⟩ ({}, ()) (asking ++ waiting)).1.service.runner.calls ∧
    (run tardy ⟨1⟩ ({}, ()) (asking ++ waiting ++ .read :: catchingUp)).1.exit =
      some (.code 0 none) ∧
    ∃ written, Parting [question] written
      (run tardy ⟨1⟩ ({}, ()) (asking ++ waiting ++ .read :: catchingUp)).1 (.code 0 none) := by
  obtain ⟨input, asked_it, read_it⟩ := run_asking
  obtain ⟨waited, took_none⟩ := run_waiting input
  obtain ⟨ends, took_nothing⟩ := read_awaiting input
  obtain ⟨success, took_no_more⟩ := run_catchingUp input
  have upto : run tardy ⟨1⟩ ({}, ()) (asking ++ waiting) = (awaiting input, ()) := by
    rw [run_append, asked_it, waited]
  have onwards : run tardy ⟨1⟩ (awaiting input, ()) (.read :: catchingUp) =
      run tardy ⟨1⟩ (ended input, ()) catchingUp := by
    rw [run, List.foldl_cons, step, ends]
    rfl
  have reads : requestsRead tardy ⟨1⟩ ({}, ()) (asking ++ waiting ++ .read :: catchingUp) =
      [question] := by
    rw [requestsRead_append, upto, requestsRead_append, asked_it, read_it, took_none, requestsRead,
      took_nothing, step, ends, took_no_more]
    rfl
  have left : (run tardy ⟨1⟩ ({}, ()) (asking ++ waiting ++ .read :: catchingUp)).1.exit =
      some (.code 0 none) := by
    rw [run_append, upto, onwards, success]
  have returns : ∀ w engine code how, (tardy.execute w engine code).1 ≠ .halt how := by
    intro w engine code how halted
    cases halted
  refine ⟨returns, ?_, ?_, left, ?_⟩
  · rw [upto]
    rfl
  · rw [upto]
    simp [awaiting]
  · rw [← reads]
    exact success_loses_nothing tardy ⟨1⟩ returns () _ left

end Sandbox.Worker

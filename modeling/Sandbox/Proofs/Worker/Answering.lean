import Sandbox.Proofs.Worker.Flow

namespace Sandbox.Worker

open Runner (Service)

/-! ## The requests that are read -/

def Reads (whole : ByteArray) (requests taken : List Request) (s : State) : Prop :=
  ∃ front back unread, whole = front ++ back ∧ Frame.Streams back unread ∧
    requests = taken ++ unread ∧ (s.reader = .reading → s.taken = front.size)

namespace Reads

variable {whole rest : ByteArray} {requests taken : List Request} {s : State}

theorem read (reads : Reads whole requests taken s) (cut : s.input ++ rest = whole) :
    Reads whole requests (taken ++ (s.takes? .read).toList) (Worker.read s) := by
  obtain ⟨front, back, unread, rfl, streams, rfl, position⟩ := reads
  rw [Worker.read, State.takes?]
  split
  · rename_i may
    have reading := reading_of_canRead may
    rcases found : Frame.readFrame (.ofBytes s.input) .async s.taken with ⟨request | cause | _, stop⟩
    · rw [position reading] at found
      obtain ⟨body, back', unread', rfl, rfl, encoded, streams', stops⟩ := streams.next cut found
      refine ⟨front ++ Frame.enclose body, back', unread', ?_, streams', ?_, fun _ => stops⟩
      · rw [ByteArray.append_assoc]
      · rw [List.append_assoc]
        rfl
    · exact ⟨front, back, unread, rfl, streams, by simp, fun reading => by cases reading⟩
    · exact ⟨front, back, unread, rfl, streams, by simp, fun reading => by cases reading⟩
  · exact ⟨front, back, unread, rfl, streams, by simp, position⟩

theorem grow (reads : Reads whole requests taken s) {more : ByteArray} {further : List Request}
    (following : Frame.Streams more further) :
    Reads (whole ++ more) (requests ++ further) taken s := by
  obtain ⟨front, back, unread, rfl, streams, rfl, position⟩ := reads
  exact ⟨front, back ++ more, unread ++ further, ByteArray.append_assoc, streams.append following,
    List.append_assoc .., position⟩

theorem reading (reads : Reads whole requests taken s) (cut : s.input ++ rest = whole)
    (opened : s.closed = false) (reading : s.reader = .reading) :
    (Worker.read s).reader = .reading := by
  obtain ⟨front, back, unread, rfl, streams, -, position⟩ := reads
  by_cases may : canRead s = true
  · have arrived : Frame.arrived s.input front.size false = true := by
      simp only [canRead, decide_eq_true_eq, opened, position reading] at may
      exact may.2.2.2
    obtain ⟨request, stop, found⟩ := streams.found cut arrived
    rw [← position reading] at found
    exact (read_reader found).trans reading
  · rwa [Worker.read, if_neg may]

theorem found (reads : Reads whole requests taken s) (streams : Frame.Streams whole requests)
    (cut : s.input ++ rest = whole) (reading : s.reader = .reading) {written : List Request}
    (part : written <+: requests) (there : Frame.span written ≤ s.input.size)
    (short : ¬written <+: taken) :
    Frame.arrived s.input s.taken s.closed = true ∧ ∃ (request : Request) (stop : Nat),
      Frame.readFrame (.ofBytes s.input) .async s.taken = (.message request, stop) := by
  obtain ⟨front, back, unread, rfl, behind, rfl, position⟩ := reads
  have sizes := streams.size_eq
  rw [ByteArray.size_append, behind.size_eq, Frame.span_append] at sizes
  have before : front.size = Frame.span taken := by omega
  have more : taken.length < written.length := by
    by_contra enough
    exact short (List.prefix_of_prefix_length_le part (List.prefix_append ..) (Nat.le_of_not_lt enough))
  cases behind with
  | nil =>
    have lengths := part.length_le
    rw [List.append_nil] at lengths
    omega
  | @cons request body back unread encoded behind =>
    have next : taken ++ [request] <+: written := by
      refine List.prefix_of_prefix_length_le ⟨unread, ?_⟩ part ?_
      · rw [List.append_assoc, List.singleton_append]
      · rw [List.length_append]
        exact more
    have sized := ((Frame.LawfulFramed.roundTrips Request).sized request body encoded).1
    have within := Frame.span_le next
    rw [Frame.span_append] at within
    have last : Frame.span [request] = (Frame.enclose body).size := by
      rw [Frame.size_enclose, sized]
      rfl
    have held : Frame.Holds s.input s.taken (Frame.enclose body) := by
      rw [position reading]
      exact Frame.Holds.of_cut ⟨front, back, by rw [cut, ByteArray.append_assoc], rfl⟩ (by omega)
    exact ⟨Frame.arrived_of_held held encoded s.closed, request, _, Frame.readFrame_held held encoded⟩

theorem congr (reads : Reads whole requests taken s) {s' : State} (reader : s'.reader = s.reader)
    (position : s'.taken = s.taken) : Reads whole requests taken s' := by
  obtain ⟨front, back, unread, split, streams, remaining, stands⟩ := reads
  refine ⟨front, back, unread, split, streams, remaining, fun reading => ?_⟩
  exact position.trans (stands (reader.symm.trans reading))

theorem run {σ : Type} (provider : Engine.Provider σ) (budget : Duration) (w : σ)
    {actions : List Action} (reads : Reads whole requests taken s)
    (cut : (Worker.run provider budget (s, w) actions).1.input ++ rest = whole) :
    taken ++ requestsRead provider budget (s, w) actions <+: requests := by
  induction actions generalizing taken s w with
  | nil =>
    obtain ⟨front, back, unread, -, -, rfl, -⟩ := reads
    rw [requestsRead, List.append_nil]
    exact List.prefix_append _ _
  | cons action later ih =>
    have leaves := step_leaves provider budget s w action
    have stepped : Reads whole requests (taken ++ (s.takes? action).toList)
        (Worker.step provider budget (s, w) action).1 := by
      cases action with
      | read =>
        -- What has arrived now is a front part of what has arrived in the end.
        obtain ⟨more, grown⟩ := run_input provider budget s w (.read :: later)
        rw [grown, ByteArray.append_assoc] at cut
        exact reads.read cut
      | _ =>
        obtain ⟨reader, position⟩ := leaves.reader (fun same => by cases same)
        exact (List.append_nil taken).symm ▸ reads.congr reader position
    have later := ih (Worker.step provider budget (s, w) action).2 stepped cut
    rwa [List.append_assoc] at later

end Reads

/-! ## Every request is answered, or the output ends -/

structure Idle (s : State) : Prop where
  inbox : s.service.inbox = []
  served : ∀ request, ⟨.answer request, .active⟩ ∉ s.service.runner.calls
  outbox : s.service.outbox = []

structure Answering (taken : List Request) (written : List Response) (s : State) : Prop where
  framed : Frame.readEach (.ofBytes s.output) .async (written.length + 1) 0 =
    (written.map .message ++ [.finished], s.output.size)
  said : written.Subperm s.service.runner.replies
  owed : (written.map Response.id).Subperm (taken.map Request.id)
  answered : Idle s → ((written.map Response.id).Perm (taken.map Request.id) ↔
    ∀ response ∈ s.service.runner.replies, ∃ body, Frame.encode response = .ok body)
  lost : s.writer ≠ .writing → written.length < taken.length ∧
    (s.reader = .reading → s.service.runner.halted = none → ending? s = none)

theorem subperm_ids {some all : List Response} (part : some.Subperm all) :
    (some.map Response.id).Subperm (all.map Response.id) := by
  obtain ⟨same, perm, fewer⟩ := part
  exact ⟨same.map Response.id, perm.map _, fewer.map _⟩

theorem Flows.answering {taken : List Request} {written : List Response} {s : State}
    (flows : Flows taken written s) : Answering taken written s := by
  obtain ⟨fewer, all⟩ := flows.takes.replies
  have ids := fewer.subperm
  have framed := flows.output.readEach ByteArray.empty
  rw [ByteArray.empty_append] at framed
  by_cases writing : s.writer = .writing
  · obtain ⟨-, balance⟩ := flows.writing writing
    have said : written.Subperm s.service.runner.replies :=
      (List.sublist_append_left ..).subperm.trans balance.subperm
    refine ⟨framed, said, (subperm_ids said).trans ids, ?_, fun failed => absurd writing failed⟩
    intro idle
    rw [idle.outbox, List.append_nil] at balance
    refine ⟨fun _ response reply => flows.output.encoded (balance.mem_iff.mpr reply), fun _ => ?_⟩
    rw [← all idle.inbox idle.served]
    exact balance.map Response.id
  · obtain ⟨-, -, lost, cause, unframed, part⟩ := flows.failed writing
    have said : written.Subperm s.service.runner.replies :=
      (List.sublist_cons_self lost written).subperm.trans part
    -- The lost answer is a reply that was not written, and no request has two replies.
    have short : written.length < taken.length := by
      have replies := part.length_le
      have requests := ids.length_le
      simp only [List.length_cons, List.length_map] at replies requests
      omega
    refine ⟨framed, said, (subperm_ids said).trans ids, ?_, fun _ => ⟨short, ?_⟩⟩
    · intro idle
      constructor
      · intro balance
        have lengths := balance.length_eq
        simp only [List.length_map] at lengths
        omega
      · intro every
        obtain ⟨body, encoded⟩ := every lost (part.subset List.mem_cons_self)
        exact nomatch unframed.symm.trans encoded
    · intro reading going
      simp only [ending?, going, flows.accepting (flows.opened reading), if_true]

/-- Whatever is sent to a worker, and in whatever pieces and order its tasks get on: it answers no
request twice, and once there is nothing left to handle it has answered every request that it read,
under the request's id, if and only if all answers can be framed. The first one that cannot ends the
output, but the worker goes on to read requests. -/
theorem answered_iff_framed {σ : Type} (provider : Engine.Provider σ) (budget : Duration) (w : σ)
    (actions : List Action) :
    (∃ written, Answering (requestsRead provider budget ({}, w) actions) written
      (run provider budget ({}, w) actions).1) ∧
    ((run provider budget ({}, w) actions).1.writer ≠ .writing → ∀ later,
      (run provider budget ({}, w) (actions ++ later)).1.output =
        (run provider budget ({}, w) actions).1.output) ∧
    ∀ requests whole rest, Frame.Streams whole requests →
      (run provider budget ({}, w) actions).1.input ++ rest = whole →
      requestsRead provider budget ({}, w) actions <+: requests := by
  refine ⟨?_, ?_, ?_⟩
  · obtain ⟨written, flows⟩ := Flows.begin.run provider budget w actions
    exact ⟨written, flows.answering⟩
  · intro failed later
    rw [run, List.foldl_append]
    exact run_failed provider budget _ failed later
  · intro requests whole rest streams cut
    have reads : Reads whole requests [] {} :=
      ⟨ByteArray.empty, whole, requests, ByteArray.empty_append.symm, streams, rfl, fun _ => rfl⟩
    exact reads.run provider budget w cut

/-! ## An answer that is lost

A worker is asked a question. The engine answers at once, but with more text than a frame holds.
-/

def recital (text : String) : Engine.Provider Unit where
  start w _ _ := (⟨some (.published 0), .ok ()⟩, w)
  execute w _ _ := (.output ⟨some text, none⟩, w)

def question : Request := ⟨⟨"a"⟩, .run "x"⟩

def questionBody : ByteArray :=
  Frame.Body.encode (Frame.Framed.layout Request) (Frame.Framed.record question)

theorem encode_question : Frame.encode question = .ok questionBody :=
  Frame.encode_eq_ok.mpr ⟨by decide, rfl⟩

def exchange : List Action :=
  [.feed (Frame.enclose questionBody), .read, .receive, .poll 0, .poll 1, .write, .leave]

def asked (input : ByteArray) : State :=
  { input, taken := input.size, service := (Service.start {}).post question }

def replied (text : String) (input : ByteArray) : State :=
  { asked input with
    service :=
      { runner :=
          { outcome := some (.ok 0)
            slots := 1
            calls := [⟨.warmUp, .finished (.status .ready)⟩,
              ⟨.answer question, .finished (.response ⟨question.id, .result text ""⟩)⟩] }
        accepting := true
        serving := [1]
        outbox := [⟨question.id, .result text ""⟩] } }

theorem read_question {input : ByteArray} (sent : input = Frame.enclose questionBody) :
    read { input } = asked input ∧ State.takes? { input } .read = some question := by
  have held : Frame.Holds input 0 (Frame.enclose questionBody) :=
    ⟨ByteArray.empty, ByteArray.empty, by simp [sent], rfl⟩
  have may : canRead { input } = true := by
    have arrived := Frame.arrived_of_held held encode_question false
    simp only [canRead, arrived]
    rfl
  have found : Frame.readFrame (.ofBytes input) .async 0 =
      (.message question, 0 + (Frame.enclose questionBody).size) :=
    Frame.readFrame_held held encode_question
  rw [← sent, Nat.zero_add] at found
  constructor
  · rw [read, if_pos may]
    simp only [found]
    rfl
  · rw [State.takes?, if_pos may]
    simp only [found]

theorem serve_question (text : String) (input : ByteArray) :
    run (recital text) ⟨1⟩ (asked input, ()) [.receive, .poll 0, .poll 1] =
      (replied text input, ()) := rfl

theorem write_unframed {s : State} {response : Response} {rest : List Response} {cause : Failure}
    (writing : s.writer = .writing) (running : s.exit = none)
    (going : s.service.runner.halted = none) (outbox : s.service.outbox = response :: rest)
    (unframed : Frame.encode response = .error cause) :
    write s = { s with writer := .failed cause, service := s.service.stopListening } := by
  simp only [write, writing, running, going, outbox, unframed]

theorem exchange_unanswered {text : String} (long : Frame.maxBody < text.toUTF8.size) :
    requestsRead (recital text) ⟨1⟩ ({}, ()) exchange = [question] ∧
    ∃ input cause, (run (recital text) ⟨1⟩ ({}, ()) exchange).1 =
      { replied text input with
        writer := .failed cause
        service := (replied text input).service.stopListening } := by
  obtain ⟨input, sent⟩ : ∃ input, input = Frame.enclose questionBody := ⟨_, rfl⟩
  obtain ⟨read, took⟩ := read_question sent
  have fed : step (recital text) ⟨1⟩ ({}, ()) (.feed (Frame.enclose questionBody)) =
      ({ input }, ()) := by
    simp [step, sent]
  let answer : Response := ⟨question.id, .result text ""⟩
  have unframed : Frame.encode answer = .error (.link (.oversized (Frame.bodySize answer))) :=
    Frame.encode_of_long (by simp [answer, Frame.Framed.record]) long
  have wrote := write_unframed (s := replied text input) rfl rfl rfl rfl unframed
  constructor
  · rw [exchange, requestsRead, fed, requestsRead, took]
    rfl
  · refine ⟨input, .link (.oversized (Frame.bodySize answer)), ?_⟩
    have left : run (recital text) ⟨1⟩ (replied text input, ()) [.write, .leave] =
        (leave (write (replied text input)), ()) := rfl
    rw [exchange, run, List.foldl_cons, fed, List.foldl_cons, step, read]
    change (run (recital text) ⟨1⟩ (asked input, ()) ([.receive, .poll 0, .poll 1] ++
      [.write, .leave])).1 = _
    rw [run, List.foldl_append, ← run, ← run, serve_question, left, wrote]
    rfl

def longText : String := String.ofList (List.replicate (Frame.maxBody + 1) 'x')

theorem maxBody_lt_longText : Frame.maxBody < longText.toUTF8.size := by
  have size : longText.toUTF8.size = (Frame.maxBody + 1) * 'x'.utf8Size := by
    rw [longText, String.toUTF8_eq_toByteArray]
    simp [List.utf8Encode]
  rw [size]
  decide

/-- The question is read, and never answered by a worker that goes on. -/
theorem question_unanswered :
    Frame.encode question = .ok questionBody ∧
    (∀ w engine code how, ((recital longText).execute w engine code).1 ≠ .halt how) ∧
    requestsRead (recital longText) ⟨1⟩ ({}, ()) exchange = [question] ∧
    (run (recital longText) ⟨1⟩ ({}, ()) exchange).1.exit = none ∧
    (run (recital longText) ⟨1⟩ ({}, ()) exchange).1.reader = .reading ∧
    Idle (run (recital longText) ⟨1⟩ ({}, ()) exchange).1 ∧
    (run (recital longText) ⟨1⟩ ({}, ()) exchange).1.output = ByteArray.empty := by
  obtain ⟨took, input, cause, after⟩ := exchange_unanswered maxBody_lt_longText
  rw [after]
  refine ⟨encode_question, nofun, took, rfl, rfl, ⟨rfl, ?_, rfl⟩, rfl⟩
  intro request active
  simp [replied, Service.stopListening] at active

theorem answered_iff_framed_again :
    (run (recital longText) ⟨1⟩ ({}, ()) exchange).1.writer ≠ .writing ∧
    (run (recital longText) ⟨1⟩ ({}, ()) (exchange ++ exchange)).1.output = ByteArray.empty := by
  obtain ⟨-, input, cause, after⟩ := exchange_unanswered maxBody_lt_longText
  obtain ⟨-, ended, -⟩ := answered_iff_framed (recital longText) ⟨1⟩ () exchange
  rw [after] at ended
  rw [after]
  exact ⟨nofun, ended nofun exchange⟩

end Sandbox.Worker

import Sandbox.Engine.Kit
import Sandbox.Proofs.Client.Batch
import Sandbox.Proofs.Frame.Stream
import Sandbox.Proofs.Runner.Execution
import Sandbox.Proofs.Text.Utf8
import Sandbox.Proofs.Worker.Answering

namespace Sandbox.Engine

inductive Use
  | executed (code : String)
  | freed (address length : Nat)
deriving DecidableEq

namespace Buffer

def text (buffer : Buffer) : String := Text.Utf8.lossy buffer.bytes

def release (buffer : Buffer) : Use := .freed buffer.address buffer.bytes.size

theorem toUTF8_text {buffer : Buffer} (valid : buffer.bytes.IsValidUTF8) :
    buffer.text.toUTF8 = buffer.bytes := by
  rw [text, show buffer.bytes = (String.ofByteArray buffer.bytes valid).toUTF8 from rfl,
    Text.Utf8.lossy_of_valid]

end Buffer

namespace Answer

variable (answer : Answer)

def buffers : List Buffer := answer.stdout.toList ++ answer.stderr.toList

def stdoutText : String := (answer.stdout.map Buffer.text).getD ""

def stderrText : String := (answer.stderr.map Buffer.text).getD ""

def message : String :=
  match answer.stderr with
  | some buffer => buffer.text
  | none => "engine returned status " ++ toString answer.status

def kind : Response.Kind :=
  if answer.status = 0 then .result answer.stdoutText answer.stderrText else .failure answer.message

def reply : Except Failure Client.Reply :=
  if answer.status = 0 then .ok (.output ⟨answer.stdoutText, answer.stderrText⟩)
  else .error (.executionFailure answer.message)

theorem answer_kind : Client.answer .run answer.kind = answer.reply := by
  rw [kind, reply]
  split <;> rfl

end Answer

namespace Library

variable {σ : Type} (library : Library σ)

def recorded : Library (σ × List Use) where
  initStatus := library.initStatus
  initSpan := library.initSpan
  executes := library.executes
  frees := library.frees
  execute := fun (state, uses) code =>
    let (outcome, state) := library.execute state code
    (outcome, state, uses ++ [.executed code])
  free := fun (state, uses) address length =>
    (library.free state address length, uses ++ [.freed address length])

theorem takeBuffer_text (state : σ) (buffer : Option Buffer) :
    (library.takeBuffer state buffer).1 = buffer.map Buffer.text := by
  cases buffer <;> rfl

theorem takeBuffer_recorded (state : σ) (uses : List Use) (buffer : Option Buffer) :
    library.recorded.takeBuffer (state, uses) buffer =
      ((library.takeBuffer state buffer).1, (library.takeBuffer state buffer).2,
        uses ++ buffer.toList.map Buffer.release) := by
  cases buffer with
  | none => exact congrArg (none, state, ·) (List.append_nil uses).symm
  | some buffer => rfl

theorem run_of_execute {state left : σ} {code : String} {answer : Answer}
    (executed : library.execute state code = (.ok answer, left)) :
    library.run state code =
      (if answer.status = 0 then
        .output ⟨answer.stdout.map Buffer.text, answer.stderr.map Buffer.text⟩
      else .error answer.message,
      (library.takeBuffer (library.takeBuffer left answer.stdout).2 answer.stderr).2) := by
  simp only [run, executed, takeBuffer_text]
  split
  · rfl
  · rw [Answer.message]
    cases answer.stderr <;> rfl

theorem recorded_run (state : σ) (uses : List Use) (code : String) {answer : Answer} {left : σ}
    (executed : library.execute state code = (.ok answer, left)) :
    library.recorded.run (state, uses) code =
      ((library.run state code).1, (library.run state code).2,
        uses ++ .executed code :: answer.buffers.map Buffer.release) := by
  have executed' : library.recorded.execute (state, uses) code =
      (.ok answer, left, uses ++ [.executed code]) := by
    simp only [recorded, executed]
  rw [run_of_execute _ executed', run_of_execute _ executed, takeBuffer_recorded,
    takeBuffer_recorded, Answer.buffers]
  simp

end Library

structure Crosses (response : Response) : Prop where
  arrives : Frame.bodySize response ≤ Frame.maxBody → ∃ body, Frame.encode response = .ok body ∧
    Frame.decode body = .ok response ∧
    ∀ mode, Frame.readFrame (.ofBytes (Frame.enclose body)) mode 0 =
      (.message response, (Frame.enclose body).size)
  refused : Frame.maxBody < Frame.bodySize response →
    Frame.encode response = .error (.link (.oversized (Frame.bodySize response)))

/-- What comes of an execution that answers: in the library, in the runner of a context, in frames
and in the client. -/
structure Conveyed {σ : Type} (library : Library σ) (state : σ) (code : String) (answer : Answer) :
    Prop where
  used : ∀ uses, library.recorded.run (state, uses) code =
    ((library.run state code).1, (library.run state code).2,
      uses ++ .executed code :: answer.buffers.map Buffer.release)
  output : answer.status = 0 → (library.run state code).1 =
    .output ⟨answer.stdout.map Buffer.text, answer.stderr.map Buffer.text⟩
  error : answer.status ≠ 0 → (library.run state code).1 = .error answer.message
  valid : ∀ buffer ∈ answer.buffers, buffer.bytes.IsValidUTF8 → buffer.text.toUTF8 = buffer.bytes
  read : ∀ buffer ∈ answer.buffers, ∀ text,
    Text.Utf8.Reads buffer.bytes.data.toList text ↔ text = buffer.text.toList
  responded : ∀ (path : String) (budget : Duration) (s : Runner.State) (caller engine : Nat)
    (id : CorrelationId), s.halted = none → s.outcome = some (.ok engine) →
    s.calls[caller]? = some ⟨.answer ⟨id, .run code⟩, .active⟩ →
    Runner.poll (Library.provider path (some library)) budget s state caller =
      (s.setPhase caller (.finished (.response ⟨id, answer.kind⟩)), (library.run state code).2)
  crosses : ∀ id, Crosses ⟨id, answer.kind⟩
  told : ∀ {τ : Type} (contexts : Client.Contexts τ) (settings : Client.Settings)
    (s : Client.State) (w : τ) (generation : Nat) (record : Client.Record),
    s.current? = some generation → s.record? record.id = some record → record.awaited = .run →
    (Client.step contexts settings (s, w)
      (.event generation (.response ⟨record.id, answer.kind⟩))).1.calls[record.caller]? =
        s.calls[record.caller]?.map (Client.Call.given answer.reply)

section
variable {σ : Type} {library : Library σ} {state left : σ} {code : String} {answer : Answer}

theorem responded (executed : library.execute state code = (.ok answer, left)) (path : String)
    (budget : Duration) (s : Runner.State) (caller engine : Nat) (id : CorrelationId)
    (running : s.halted = none) (ready : s.outcome = some (.ok engine))
    (active : s.calls[caller]? = some ⟨.answer ⟨id, .run code⟩, .active⟩) :
    Runner.poll (Library.provider path (some library)) budget s state caller =
      (s.setPhase caller (.finished (.response ⟨id, answer.kind⟩)),
        (library.run state code).2) := by
  have returned : Runner.responseKind? (library.run state code).1 = some answer.kind := by
    rw [Library.run_of_execute library executed, Answer.kind]
    split <;> rfl
  simp only [Runner.poll, running, active, ready]
  exact Runner.conclude_returned _ rfl returned

theorem crosses (response : Response) : Crosses response := by
  constructor
  case arrives =>
    intro fits
    have encoded := Frame.encode_eq_ok.mpr ⟨fits, rfl⟩
    refine ⟨_, encoded, Frame.decode_encode encoded, ?_⟩
    intro mode
    have held := Frame.Holds.of_append ByteArray.empty (Frame.enclose
      (Frame.Body.encode (Frame.Framed.layout Response) (Frame.Framed.record response)))
    rw [ByteArray.empty_append, ByteArray.size_empty] at held
    rw [Frame.readFrame_held held encoded, Nat.zero_add]
  case refused => exact fun oversized => if_pos oversized

theorem told {τ : Type} (contexts : Client.Contexts τ) (settings : Client.Settings)
    (s : Client.State) (w : τ) (generation : Nat) (record : Client.Record) (answer : Answer)
    (current : s.current? = some generation) (held : s.record? record.id = some record)
    (run : record.awaited = .run) :
    (Client.step contexts settings (s, w)
      (.event generation (.response ⟨record.id, answer.kind⟩))).1.calls[record.caller]? =
        s.calls[record.caller]?.map (Client.Call.given answer.reply) := by
  have harmless : Client.Harmless s ⟨record.id, answer.kind⟩ := by
    intro record' held' handshake
    cases held.symm.trans held'
    exact nomatch run.symm.trans handshake
  rw [Client.step_hear contexts settings current harmless]
  apply Client.hear_told
  exact ⟨record, held, rfl, by rw [run, answer.answer_kind]⟩

end

/-- Whatever an execution answers, the library gets back each buffer that it handed out, once and
with its length, and nothing else; and if the response fits into a frame, the texts in the buffers
are what the waiting call is told. -/
theorem executions_carry_over {σ : Type} (library : Library σ) (state left : σ) (code : String)
    (answer : Answer) (executed : library.execute state code = (.ok answer, left)) :
    Conveyed library state code answer := by
  constructor
  case used => exact fun uses => library.recorded_run state uses code executed
  case output =>
    intro success
    rw [library.run_of_execute executed, if_pos success]
  case error =>
    intro failure
    rw [library.run_of_execute executed, if_neg failure]
  case valid => exact fun buffer _ => Buffer.toUTF8_text
  case read => exact fun buffer _ => Text.Utf8.reads_iff_lossy buffer.bytes
  case responded => exact responded executed
  case crosses => exact fun id => crosses ⟨id, answer.kind⟩
  case told =>
    exact fun contexts settings s w generation record =>
      told contexts settings s w generation record answer

theorem executions_carry_over_both : ∃ answer left,
    Kit.library.execute {} "fail-both" = (.ok answer, left) ∧
    Conveyed Kit.library {} "fail-both" answer ∧
    answer.kind = .failure "kept" ∧
    (Kit.library.recorded.run ({}, []) "fail-both").2.2 =
      [.executed "fail-both", .freed 1 4, .freed 2 4] := by
  have executed : Kit.library.execute {} "fail-both" =
    (.ok ⟨-1, some ⟨1, "lost".toUTF8⟩, some ⟨2, "kept".toUTF8⟩⟩, ⟨1, 2⟩) := rfl
  have conveyed := executions_carry_over Kit.library {} ⟨1, 2⟩ "fail-both" _ executed
  refine ⟨_, _, executed, conveyed, ?_, ?_⟩
  · exact congrArg Response.Kind.failure (Text.Utf8.lossy_of_valid "kept")
  · rw [conveyed.used []]
    rfl

def outpour (text : String) : Answer := ⟨0, some ⟨1, text.toUTF8⟩, none⟩

theorem outpour_kind (text : String) : (outpour text).kind = .result text "" :=
  congrArg (Response.Kind.result · "") (Text.Utf8.lossy_of_valid text)

def outpouring (text : String) : Library Unit where
  initStatus := none
  execute _ _ := (.ok (outpour text), ())
  free _ _ _ := ()

/-- The texts of an execution are refused when they are longer than a frame can be. -/
theorem outpour_refused :
    (outpouring Worker.longText).execute () "x" = (.ok (outpour Worker.longText), ()) ∧
    (outpour Worker.longText).kind = .result Worker.longText "" ∧
    ¬∃ body, Frame.encode (⟨⟨"1"⟩, (outpour Worker.longText).kind⟩ : Response) = .ok body := by
  refine ⟨rfl, outpour_kind _, ?_⟩
  rintro ⟨body, encoded⟩
  have member : Worker.longText ∈
      (Frame.Framed.record (⟨⟨"1"⟩, .result Worker.longText ""⟩ : Response)).texts :=
    List.mem_cons_self
  rw [outpour_kind, Frame.encode_of_long member Worker.maxBody_lt_longText] at encoded
  cases encoded

end Sandbox.Engine

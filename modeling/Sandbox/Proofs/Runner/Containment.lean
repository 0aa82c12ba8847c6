import Sandbox.Proofs.Runner.Outcome
import Sandbox.Proofs.Runner.Replies

/-!
Executions and the answers that come of them. Each has a call of its own, so that an engine that
fails in one of them spoils the answer of that call and nothing else.
-/

namespace Sandbox.Runner

open Engine

inductive Shows : Verdict → Response.Kind → Prop
  | output (streams : Output) :
    Shows (.output streams) (.result (streams.stdout.getD "") (streams.stderr.getD ""))
  | error (message : String) : Shows (.error message) (.failure message)
  | text (message : String) : Shows (.panic (.text message)) (.failure ("engine panicked: " ++ message))
  | other : Shows (.panic .other) (.failure "engine panicked: unknown panic payload")

theorem responseKind?_eq_some {verdict : Verdict} {kind : Response.Kind} :
    responseKind? verdict = some kind ↔ Shows verdict kind := by
  constructor
  · intro returned
    rcases verdict with streams | message | (message | _) | how <;> cases returned
    · exact .output streams
    · exact .error message
    · exact .text message
    · exact .other
  · rintro (_ | _ | _ | _) <;> rfl

/-- A provider that counts executions, and whose execution of the given number ends with this
verdict instead of its own. -/
def altered {σ : Type} (provider : Provider σ) (n : Nat) (verdict : Verdict) : Provider (σ × Nat) where
  start := fun (w, count) now slot =>
    let (start, w) := provider.start w now slot
    (start, w, count)
  execute := fun (w, count) engine code =>
    let (own, w) := provider.execute w engine code
    (if count = n then verdict else own, w, count + 1)

theorem State.getElem?_setPhase (s : State) (caller : Nat) (phase : Phase) (other : Nat) :
    (s.setPhase caller phase).calls[other]? = if caller = other then
      s.calls[other]?.map fun call => { call with phase } else s.calls[other]? :=
  getElem?_modify_phase s.calls caller phase other

@[simp] theorem State.setPhase_setPhase (s : State) (caller : Nat) (first last : Phase) :
    (s.setPhase caller first).setPhase caller last = s.setPhase caller last := by
  simp [setPhase, List.modify_modify_eq, Function.comp_def]

theorem State.setPhase_comm (s : State) {caller other : Nat} (apart : caller ≠ other)
    (phase phase' : Phase) :
    (s.setPhase other phase').setPhase caller phase = (s.setPhase caller phase).setPhase other phase' := by
  simp only [setPhase]
  congr 1
  apply List.ext_getElem?
  intro i
  simp only [getElem?_modify_phase]
  by_cases own : caller = i
  · subst own
    simp [apart.symm]
  · simp [own]

theorem State.start_setPhase {s : State} {caller : Nat} (known : caller < s.calls.length)
    (phase : Phase) (task : Task) :
    ((s.setPhase caller phase).start task).2 = (s.start task).2.setPhase caller phase := by
  simp only [start, setPhase]
  congr 1
  apply List.ext_getElem?
  intro i
  simp only [List.getElem?_append, getElem?_modify_phase, List.length_modify]
  split
  · rfl
  · rw [if_neg (by omega)]

theorem deliver_setPhase (s : State) (caller : Nat) (phase : Phase) (slot : Nat) (mail : Mail) :
    (deliver (s.setPhase caller phase) slot mail).2 = (deliver s slot mail).2.setPhase caller phase := by
  simp only [deliver, State.setPhase]
  split
  · split <;> rfl
  · rfl

theorem cancel_halted (s : State) (caller : Nat) : (cancel s caller).halted = s.halted := by
  have passes : ∀ s : State, (passTurn s).halted = s.halted := by
    intro s
    unfold passTurn
    split <;> rfl
  unfold cancel
  split
  · dsimp only
    split
    · exact passes _
    · rfl
  · rfl

theorem cancel_setPhase {s : State} {ended : Nat} {task : Task} {result result' : Result}
    (found : s.calls[ended]? = some ⟨task, .finished result⟩) (caller : Nat) :
    cancel (s.setPhase ended (.finished result')) caller =
      (cancel s caller).setPhase ended (.finished result') := by
  unfold cancel
  rw [State.getElem?_setPhase]
  by_cases own : ended = caller
  · subst own
    simp [found]
  · rw [if_neg own]
    split
    · have passes : ∀ s : State, passTurn (s.setPhase ended (.finished result')) =
          (passTurn s).setPhase ended (.finished result') := by
        intro s
        simp only [passTurn, State.setPhase]
        split <;> rfl
      have same : ∀ queue, { (s.setPhase ended (.finished result')).setPhase caller .cancelled with
          queue } = State.setPhase { s.setPhase caller .cancelled with queue } ended
            (.finished result') := by
        intro queue
        rw [s.setPhase_comm (Ne.symm own)]
        rfl
      have held : holdsTurn (s.setPhase ended (.finished result')) caller = holdsTurn s caller := rfl
      dsimp only
      rw [same, held]
      split
      · exact passes _
      · rfl
    · rfl

/-! ## Polls of one call in two runs -/

inductive Meets {σ : Type} (n count : Nat) (verdict : Verdict) (kind : Response.Kind) (s : State)
    (caller : Nat) : State × σ × List Execution → State × (σ × Nat) × List Execution → Prop
  | waits (s' : State) (w : σ) : Meets n count verdict kind s caller (s', w, []) (s', (w, count), [])
  | spared (s' : State) (w : σ) (execution : Execution) (other : count ≠ n) :
    Meets n count verdict kind s caller (s', w, [execution]) (s', (w, count + 1), [execution])
  | struck {s' : State} {id : CorrelationId} {code : String} {old : Response.Kind} (w : σ)
    (execution : Execution) (here : count = n)
    (active : s.calls[caller]? = some ⟨.answer ⟨id, .run code⟩, .active⟩)
    (finished : s'.calls[caller]? =
      some ⟨.answer ⟨id, .run code⟩, .finished (.response ⟨id, old⟩)⟩) :
    Meets n count verdict kind s caller (s', w, [execution])
      (s'.setPhase caller (.finished (.response ⟨id, kind⟩)), (w, count + 1),
        [{ execution with verdict }])

section
variable {σ : Type} (provider : Provider σ) (budget : Duration)

theorem conclude_setPhase (s : State) (w : σ) {caller other : Nat} (apart : caller ≠ other)
    (phase : Phase) (task : Task) (outcome : Except String Nat) :
    conclude provider (s.setPhase other phase) w caller task outcome =
      (conclude provider s w caller task outcome).map (·.setPhase other phase) id := by
  have swap := fun phase' => s.setPhase_comm apart phase' phase
  rcases task with _ | ⟨id, _ | code⟩ <;> rcases outcome with message | engine
  case answer.run.ok =>
    rcases executed : provider.execute w engine code with ⟨own, w'⟩
    cases own with
    | halt how => simp only [conclude, executed]; rfl
    | _ => simp only [conclude, executed, responseKind?, swap]; rfl
  all_goals exact congrArg (·, w) (swap _)

theorem poll_forget (s : State) (w : σ) (caller : Nat) :
    poll provider budget s w caller =
      (poll (observed provider) budget s (w, []) caller).map id Prod.fst := by
  obtain ⟨s', w', record, eq, plain, -⟩ := poll_observed provider budget s w caller
  rw [eq, plain]
  rfl

theorem poll_setPhase (s : State) (w : σ) {caller other : Nat} (apart : caller ≠ other)
    (phase : Phase) :
    poll provider budget (s.setPhase other phase) w caller =
      (poll provider budget s w caller).map (·.setPhase other phase) id := by
  refine poll_relates budget (W := Eq) (R := fun c c' => c' = c.map (·.setPhase other phase) id)
    (fun calls => calls.modify other fun call => { call with phase }) ?_ ?_ ?_ ?_ rfl
  · rw [getElem?_modify_phase, if_neg apart.symm]
  · rintro w _ now slot rfl
    exact ⟨rfl, rfl⟩
  · rintro w _ s' - rfl
    rfl
  · rintro w _ s' task outcome - - rfl
    exact conclude_setPhase provider s' w apart phase task outcome

end

section
variable {σ : Type} {provider : Provider σ} (budget : Duration) {n : Nat} {verdict : Verdict}
  {kind : Response.Kind} (shows : Shows verdict kind)
  (returns : ∀ w engine code how, (provider.execute w engine code).1 ≠ .halt how)
include shows returns

theorem conclude_meets {s start : State} (same : s.calls = start.calls) {caller : Nat} {task : Task}
    (active : start.calls[caller]? = some ⟨task, .active⟩) (w : σ) (count : Nat)
    (outcome : Except String Nat) :
    Meets n count verdict kind start caller
      (conclude (observed provider) s (w, []) caller task outcome)
      (conclude (observed (altered provider n verdict)) s ((w, count), []) caller task outcome) := by
  rcases task with _ | ⟨id, _ | code⟩ <;> rcases outcome with message | engine
  case answer.run.ok =>
    rcases executed : provider.execute w engine code with ⟨own, w'⟩
    obtain ⟨old, returned⟩ : ∃ old, responseKind? own = some old := by
      cases own with
      | halt how => exact absurd (congrArg Prod.fst executed) (returns w engine code how)
      | _ => exact ⟨_, rfl⟩
    have ran : (altered provider n verdict).execute (w, count) engine code =
        (if count = n then verdict else own, w', count + 1) := by
      simp only [altered, executed]
    rw [conclude_returned _ (observed_execute provider executed []) returned]
    by_cases here : count = n
    · rw [if_pos here] at ran
      rw [conclude_returned _ (observed_execute _ ran []) (responseKind?_eq_some.mpr shows)]
      have finished : (s.setPhase caller (.finished (.response ⟨id, old⟩))).calls[caller]? =
          some ⟨.answer ⟨id, .run code⟩, .finished (.response ⟨id, old⟩)⟩ := by
        rw [State.getElem?_setPhase, if_pos rfl, same, active]
        rfl
      have struck : Meets n count verdict kind start caller _ _ :=
        .struck w' ⟨engine, code, own⟩ here active finished
      rwa [State.setPhase_setPhase] at struck
    · rw [if_neg here] at ran
      rw [conclude_returned _ (observed_execute _ ran []) returned]
      exact .spared _ w' _ here
  all_goals exact .waits _ w

theorem poll_meets (s : State) (w : σ) (count caller : Nat) :
    Meets n count verdict kind s caller (poll (observed provider) budget s (w, []) caller)
      (poll (observed (altered provider n verdict)) budget s ((w, count), []) caller) := by
  refine poll_relates budget (W := fun v v' => v.2 = [] ∧ v' = ((v.1, count), []))
    (R := Meets n count verdict kind s caller) id rfl ?_ ?_ ?_ ⟨rfl, rfl⟩
  · rintro ⟨w, _⟩ _ now slot ⟨rfl, rfl⟩
    exact ⟨rfl, rfl, rfl⟩
  · rintro ⟨w, _⟩ _ s' - ⟨rfl, rfl⟩
    exact .waits s' w
  · rintro ⟨w, _⟩ _ s' task outcome same active ⟨rfl, rfl⟩
    exact conclude_meets shows returns same active w count outcome

end

/-! ## Executions of a service -/

namespace Service

section
variable {σ : Type} (provider : Provider σ) (budget : Duration)

def Action.executions (c : Service × σ) : Action → List (Nat × Execution)
  | .runner (.poll caller) =>
    (Runner.poll (observed provider) budget c.1.runner (c.2, []) caller).2.2.map (caller, ·)
  | _ => []

def executions : Service × σ → List Action → List (Nat × Execution)
  | _, [] => []
  | c, action :: rest =>
    action.executions provider budget c ++ executions (step provider budget c action) rest

theorem step_executions (s : Service) (w : σ) (action : Action) :
    ∃ s' w', step (observed provider) budget (s, w, []) action =
        (s', w', (action.executions provider budget (s, w)).map Prod.snd) ∧
      step provider budget (s, w) action = (s', w') ∧
      Change s.runner (action.executions provider budget (s, w)) s'.runner ∧
      s.serving ⊆ s'.serving ∧
      ∀ response ∈ s'.outbox, response ∈ s.outbox ∨ ∃ caller ∈ s'.serving,
        answer? s'.runner caller = some response := by
  obtain ⟨s', w', log, eq, plain, change, sent⟩ := step_change provider budget s w action
  refine ⟨s', w', ?_⟩
  rcases action with _ | request | _ | _ | _ | ⟨task⟩ | ⟨caller⟩ | ⟨caller⟩ | ⟨slot, mail⟩ | ⟨span⟩
  case runner.poll =>
    obtain ⟨runner, w'', record, polled_eq, polled_plain, polled⟩ :=
      poll_observed provider budget s.runner w caller
    have here : s'.runner = runner := by
      rw [← congrArg (fun c => c.1.runner) plain]
      simp only [step, poll, polled_plain]
    simp only [Action.executions, polled_eq]
    refine ⟨?_, plain, here ▸ .polled polled, sent⟩
    have recorded := congrArg (fun c => c.2.2) eq
    simp only [step, poll, polled_eq] at recorded
    rw [eq, ← recorded]
    simp [Function.comp_def]
  all_goals
    obtain rfl : log = [] := List.map_eq_nil_iff.mp (congrArg (fun c => c.2.2) eq).symm
    exact ⟨eq, plain, change, sent⟩

end

def amend (n : Nat) (verdict : Verdict) (log : List (Nat × Execution)) : List (Nat × Execution) :=
  log.mapIdx fun i entry => if i = n then (entry.1, { entry.2 with verdict }) else entry

theorem amend_concat (n : Nat) (verdict : Verdict) (log : List (Nat × Execution))
    (entry : Nat × Execution) :
    amend n verdict (log ++ [entry]) = amend n verdict log ++
      [if log.length = n then (entry.1, { entry.2 with verdict }) else entry] :=
  List.mapIdx_concat

theorem amend_append {n : Nat} (verdict : Verdict) {log : List (Nat × Execution)}
    (late : n < log.length) (more : List (Nat × Execution)) :
    amend n verdict (log ++ more) = amend n verdict log ++ more := by
  rw [amend, List.mapIdx_append, ← amend]
  congr 1
  refine List.mapIdx_eq_iff.mpr fun i => ?_
  have beyond : i + log.length ≠ n := by omega
  simp [beyond]

inductive Exchanged {α : Type} (old new : α) : List α → List α → Prop
  | never (l : List α) : Exchanged old new l l
  | once (before after : List α) : Exchanged old new (before ++ old :: after) (before ++ new :: after)

theorem Exchanged.append {α : Type} {old new : α} {l l' : List α} (exchanged : Exchanged old new l l')
    (more : List α) : Exchanged old new (l ++ more) (l' ++ more) := by
  cases exchanged with
  | never => exact .never _
  | once before after =>
    simp only [List.append_assoc, List.cons_append]
    exact .once before (after ++ more)

def spoil (s : Service) (caller : Nat) (phase : Phase) (outbox : List Response) : Service :=
  { s with runner := s.runner.setPhase caller phase, outbox }

theorem receive_spoil {s : Service} {caller : Nat} (known : caller < s.runner.calls.length)
    (phase : Phase) (outbox : List Response) :
    (s.spoil caller phase outbox).receive = s.receive.spoil caller phase outbox := by
  have starts := State.start_setPhase known phase
  have fresh : ∀ task, ((s.runner.setPhase caller phase).start task).1 = (s.runner.start task).1 := by
    simp [State.start, State.setPhase]
  have running : (s.runner.setPhase caller phase).halted = s.runner.halted := rfl
  simp only [receive, spoil, running]
  split
  · simp only [starts, fresh]
  · by_cases closed : s.closed = true <;> simp [closed]
  · rfl

section
variable {σ : Type} (provider : Provider σ) (budget : Duration) {s : Service} {caller : Nat}
  {task : Task} {result : Result}

theorem step_idle {τ : Type} (other : Provider τ) (s : Service) (w : σ) (v : τ) {action : Action}
    (idle : ∀ caller, action ≠ .runner (.poll caller)) :
    step provider budget (s, w) action = ((step other budget (s, v) action).1, w) ∧
      action.executions provider budget (s, w) = [] := by
  rcases action with _ | request | _ | _ | _ | ⟨task⟩ | ⟨caller⟩ | ⟨caller⟩ | ⟨slot, mail⟩ | ⟨span⟩
  case runner.poll => exact absurd rfl (idle caller)
  all_goals exact ⟨rfl, rfl⟩

theorem finished_step (ended : s.runner.calls[caller]? = some ⟨task, .finished result⟩) (w : σ)
    (action : Action) : (step provider budget (s, w) action).1.runner.calls[caller]? =
      some ⟨task, .finished result⟩ := by
  obtain ⟨s', w', -, plain, change, -⟩ := step_executions provider budget s w action
  obtain ⟨phase, found, same⟩ := change.extends _ _ _ ended
  rw [plain, ← same result rfl]
  exact found

theorem step_spoil (ended : s.runner.calls[caller]? = some ⟨task, .finished result⟩)
    (result' : Result) {old new : Response} {outbox : List Response}
    (sent : Exchanged old new s.outbox outbox) (w : σ) {action : Action}
    (idle : ∀ caller, action ≠ .runner (.poll caller)) :
    ∃ outbox', step provider budget (s.spoil caller (.finished result') outbox, w) action =
        ((step provider budget (s, w) action).1.spoil caller (.finished result') outbox', w) ∧
      Exchanged old new (step provider budget (s, w) action).1.outbox outbox' := by
  have known := (List.getElem?_eq_some_iff.mp ended).choose
  have starts := State.start_setPhase known (.finished result')
  rcases action with _ | request | _ | _ | _ | ⟨task⟩ | ⟨caller⟩ | ⟨other⟩ | ⟨slot, mail⟩ | ⟨span⟩
  case start =>
    refine ⟨outbox, ?_, sent⟩
    simp only [step, start, spoil, starts]
  case post =>
    refine ⟨outbox, ?_, ?_⟩
    · cases closed : s.closed <;> simp [step, post, spoil, closed]
    · cases closed : s.closed <;> simpa [step, post, closed] using sent
  case close => exact ⟨outbox, rfl, sent⟩
  case stopListening => exact ⟨[], rfl, .never []⟩
  case receive =>
    refine ⟨outbox, ?_, ?_⟩
    · exact congrArg (·, w) (receive_spoil known _ outbox)
    · simp only [step, receive]
      split
      · exact sent
      · split <;> exact sent
      · exact sent
  case runner.start =>
    refine ⟨outbox, ?_, sent⟩
    simp only [step, Runner.step, spoil, starts]
  case runner.poll => exact absurd rfl (idle caller)
  case runner.cancel =>
    refine ⟨outbox, ?_, sent⟩
    simp only [step, Runner.step, spoil, cancel_setPhase ended]
  case runner.deliver =>
    refine ⟨outbox, ?_, sent⟩
    simp only [step, Runner.step, spoil, deliver_setPhase]
  case runner.advance => exact ⟨outbox, rfl, sent⟩

theorem poll_finished {response : Response}
    (ended : s.runner.calls[caller]? = some ⟨task, .finished (.response response)⟩) (w : σ) :
    s.poll provider budget w caller = (s, w) ∧
      Action.executions provider budget (s, w) (.runner (.poll caller)) = [] := by
  have still : ∀ {τ : Type} (provider : Provider τ) w,
      Runner.poll provider budget s.runner w caller = (s.runner, w) := by
    intro τ provider w
    rw [Runner.poll, ended]
    split
    · rename_i active
      cases active
    · rfl
  have answered : answer? s.runner caller = some response := by
    rw [answer?_eq, ended]
    rfl
  simp [Service.poll, Action.executions, still, answered]

end

/-- Two runs that differ in what the execution of number `n` ends with: before it they are the same,
and afterwards so up to the answer of its call. -/
inductive Parted (n : Nat) (kind : Response.Kind) (log : List (Nat × Execution)) (s : Service) :
    Service → Prop
  | together (early : log.length ≤ n) : Parted n kind log s s
  | apart {caller : Nat} {execution : Execution} {id : CorrelationId} {code : String}
    {old : Response.Kind} {outbox : List Response} (made : log[n]? = some (caller, execution))
    (finished : s.runner.calls[caller]? =
      some ⟨.answer ⟨id, .run code⟩, .finished (.response ⟨id, old⟩)⟩)
    (sent : Exchanged ⟨id, old⟩ ⟨id, kind⟩ s.outbox outbox) :
    Parted n kind log s (s.spoil caller (.finished (.response ⟨id, kind⟩)) outbox)

inductive Advances {σ : Type} (provider : Provider σ) (budget : Duration) (n : Nat)
    (verdict : Verdict) (kind : Response.Kind) (log : List (Nat × Execution)) (s s' : Service) (w : σ)
    (action : Action) : Prop
  | intro (s₁ : Service)
    (stepped : step (altered provider n verdict) budget (s', w, log.length) action =
      (s₁, (step provider budget (s, w) action).2,
        (log ++ action.executions provider budget (s, w)).length))
    (amended : amend n verdict log ++
        action.executions (altered provider n verdict) budget (s', w, log.length) =
      amend n verdict (log ++ action.executions provider budget (s, w)))
    (parted : Parted n kind (log ++ action.executions provider budget (s, w))
      (step provider budget (s, w) action).1 s₁)

theorem Parted.idle {σ : Type} {provider : Provider σ} (budget : Duration) {n : Nat}
    {verdict : Verdict} {kind : Response.Kind} {log : List (Nat × Execution)} {s s' : Service}
    (parted : Parted n kind log s s') (w : σ) {action : Action}
    (idle : ∀ caller, action ≠ .runner (.poll caller)) :
    Advances provider budget n verdict kind log s s' w action := by
  obtain ⟨plain, silent⟩ := step_idle provider budget provider s w w idle
  obtain ⟨same, -⟩ :=
    step_idle (altered provider n verdict) budget provider s (w, log.length) w idle
  obtain ⟨-, silent'⟩ :=
    step_idle (altered provider n verdict) budget provider s' (w, log.length) w idle
  have amended : amend n verdict log ++
      action.executions (altered provider n verdict) budget (s', w, log.length) =
        amend n verdict (log ++ action.executions provider budget (s, w)) := by
    rw [silent, silent', List.append_nil, List.append_nil]
  cases parted with
  | together early =>
    refine ⟨_, ?_, amended, .together ?_⟩
    · rw [same, silent, List.append_nil, plain]
    · rwa [silent, List.append_nil]
  | @apart caller _ id _ _ _ made finished sent =>
    obtain ⟨outbox', stepped, sent'⟩ := step_spoil (altered provider n verdict) budget finished
      (.response ⟨id, kind⟩) sent (w, log.length) idle
    rw [same] at stepped sent'
    refine ⟨(step provider budget (s, w) action).1.spoil caller (.finished (.response ⟨id, kind⟩))
      outbox', ?_, amended, ?_⟩
    · rw [stepped, silent, List.append_nil, plain]
    · rw [silent, List.append_nil]
      exact .apart made (finished_step provider budget finished w action) sent'

section
variable {σ : Type} {provider : Provider σ} (budget : Duration) {n : Nat} {verdict : Verdict}
  {kind : Response.Kind} (shows : Shows verdict kind)
  (returns : ∀ w engine code how, (provider.execute w engine code).1 ≠ .halt how)
include shows returns

theorem poll_parted {log : List (Nat × Execution)} {s : Service} (early : log.length ≤ n) (w : σ)
    (caller : Nat) :
    ∃ s', (s.poll (altered provider n verdict) budget (w, log.length) caller) = (s',
        (s.poll provider budget w caller).2,
        (log ++ Action.executions provider budget (s, w) (.runner (.poll caller))).length) ∧
      amend n verdict log ++ Action.executions (altered provider n verdict) budget
          (s, w, log.length) (.runner (.poll caller)) =
        amend n verdict (log ++ Action.executions provider budget (s, w) (.runner (.poll caller))) ∧
      Parted n kind (log ++ Action.executions provider budget (s, w) (.runner (.poll caller)))
        (s.poll provider budget w caller).1 s' := by
  have meets : Meets n log.length verdict kind s.runner caller _ _ :=
    poll_meets budget shows returns s.runner w log.length caller
  have plain := poll_forget provider budget s.runner w caller
  have plain' := poll_forget (altered provider n verdict) budget s.runner (w, log.length) caller
  simp only [Action.executions, Service.poll, plain, plain']
  generalize Runner.poll (observed provider) budget s.runner (w, []) caller = c at meets
  generalize Runner.poll (observed (altered provider n verdict)) budget s.runner
    ((w, log.length), []) caller = c' at meets
  cases meets with
  | waits runner w' => exact ⟨_, by simp; rfl, by simp, by simpa using .together early⟩
  | spared runner w' execution other =>
    have later : log.length + 1 ≤ n := by omega
    refine ⟨_, by simp, by simp [amend_concat, other], .together ?_⟩
    simpa using later
  | @struck runner id code old w' execution here active finished =>
    have before : answer? s.runner caller = none := by rw [answer?_eq, active]; rfl
    have own : answer? runner caller = some ⟨id, old⟩ := by rw [answer?_eq, finished]; rfl
    have other : answer? (runner.setPhase caller (.finished (.response ⟨id, kind⟩))) caller =
        some ⟨id, kind⟩ := by
      rw [answer?_eq, State.getElem?_setPhase, if_pos rfl, finished]
      rfl
    refine ⟨_, by simp; rfl, by simp [amend_concat, here], ?_⟩
    have made : (log ++ [(caller, execution)])[n]? = some (caller, execution) :=
      here ▸ List.getElem?_concat_length
    refine .apart made finished ?_
    simp only [Prod.map, before, own, other, Option.toList_some, id_eq]
    split
    · exact .once s.outbox []
    · exact .never _

theorem poll_spoiled {log : List (Nat × Execution)} {s : Service} (late : n < log.length)
    {own caller : Nat} (apart : caller ≠ own) (phase : Phase) {old new : Response}
    {outbox : List Response} (sent : Exchanged old new s.outbox outbox) (w : σ) :
    ∃ outbox', (s.spoil own phase outbox).poll (altered provider n verdict) budget
          (w, log.length) caller =
        ((s.poll provider budget w caller).1.spoil own phase outbox',
          (s.poll provider budget w caller).2,
          (log ++ Action.executions provider budget (s, w) (.runner (.poll caller))).length) ∧
      Action.executions (altered provider n verdict) budget
          (s.spoil own phase outbox, w, log.length) (.runner (.poll caller)) =
        Action.executions provider budget (s, w) (.runner (.poll caller)) ∧
      Exchanged old new (s.poll provider budget w caller).1.outbox outbox' := by
  have meets : Meets n log.length verdict kind s.runner caller _ _ :=
    poll_meets budget shows returns s.runner w log.length caller
  have plain := poll_forget provider budget s.runner w caller
  have plain' := poll_forget (altered provider n verdict) budget s.runner (w, log.length) caller
  have same : ∀ runner : State, answer? (runner.setPhase own phase) caller = answer? runner caller := by
    intro runner
    rw [answer?_eq, answer?_eq, State.getElem?_setPhase, if_neg apart.symm]
  simp only [Action.executions, Service.poll, spoil, poll_setPhase _ budget _ _ apart, plain, plain',
    same]
  generalize Runner.poll (observed provider) budget s.runner (w, []) caller = c at meets
  generalize Runner.poll (observed (altered provider n verdict)) budget s.runner
    ((w, log.length), []) caller = c' at meets
  cases meets with
  | waits runner w' => exact ⟨_, by simp [same], rfl, sent.append _⟩
  | spared runner w' execution other => exact ⟨_, by simp [same], rfl, sent.append _⟩
  | struck w' execution here active finished => omega

theorem Parted.poll {log : List (Nat × Execution)} {s s' : Service} (parted : Parted n kind log s s')
    (w : σ) (caller : Nat) :
    Advances provider budget n verdict kind log s s' w (.runner (.poll caller)) := by
  cases parted with
  | together early =>
    obtain ⟨s₁, polled, amended, parted⟩ := poll_parted budget shows returns early w caller
    exact ⟨s₁, polled, amended, parted⟩
  | @apart own execution id code old outbox made finished sent =>
    by_cases same : caller = own
    · subst same
      have spoiled : (s.spoil caller (.finished (.response ⟨id, kind⟩)) outbox).runner.calls[caller]? =
          some ⟨.answer ⟨id, .run code⟩, .finished (.response ⟨id, kind⟩)⟩ := by
        rw [spoil, State.getElem?_setPhase, if_pos rfl, finished]
        rfl
      obtain ⟨stays, silent⟩ := poll_finished provider budget finished w
      obtain ⟨stays', silent'⟩ :=
        poll_finished (altered provider n verdict) budget spoiled (w, log.length)
      refine ⟨s.spoil caller (.finished (.response ⟨id, kind⟩)) outbox, ?_, ?_, ?_⟩
      · rw [silent, List.append_nil, step, step, stays, stays']
      · rw [silent, silent', List.append_nil, List.append_nil]
      · rw [silent, List.append_nil, step, stays]
        exact .apart made finished sent
    · have within := (List.getElem?_eq_some_iff.mp made).choose
      obtain ⟨outbox', stepped, executed, sent'⟩ := poll_spoiled budget shows returns within same
        (.finished (.response ⟨id, kind⟩)) sent w
      have made' : (log ++ Action.executions provider budget (s, w) (.runner (.poll caller)))[n]? =
          some (own, execution) := (List.getElem?_append_left within).trans made
      refine ⟨_, stepped, ?_, .apart made' (finished_step provider budget finished w _) sent'⟩
      rw [executed, amend_append verdict within]

theorem Parted.step {log : List (Nat × Execution)} {s s' : Service} (parted : Parted n kind log s s')
    (w : σ) (action : Action) : Advances provider budget n verdict kind log s s' w action := by
  by_cases idle : ∀ caller, action ≠ .runner (.poll caller)
  · exact parted.idle budget w idle
  · obtain ⟨caller, rfl⟩ : ∃ caller, action = .runner (.poll caller) := by simpa using idle
    exact parted.poll budget shows returns w caller

end

/-! ## Over a run -/

structure Handled (log : List (Nat × Execution)) (s : Service) : Prop where
  kept : Kept log s
  running : s.runner.halted = none
  shown : ∀ entry ∈ log, ∃ id kind, Shows entry.2.verdict kind ∧ s.runner.calls[entry.1]? =
    some ⟨.answer ⟨id, .run entry.2.code⟩, .finished (.response ⟨id, kind⟩)⟩

theorem Handled.begin : Handled [] {} := ⟨.begin, rfl, by simp⟩

section
variable {σ : Type} {provider : Provider σ} (budget : Duration)
  (returns : ∀ w engine code how, (provider.execute w engine code).1 ≠ .halt how)
include returns

theorem step_running {s : Service} (running : s.runner.halted = none) (w : σ) (action : Action) :
    (step provider budget (s, w) action).1.runner.halted = none := by
  rcases action with _ | request | _ | _ | _ | ⟨task⟩ | ⟨caller⟩ | ⟨caller⟩ | ⟨slot, mail⟩ | ⟨span⟩
  case post =>
    simp only [step, post]
    split <;> exact running
  case receive =>
    simp only [step, receive]
    split
    · exact running
    · split <;> exact running
    · exact running
  case runner.poll => exact (poll_halted returns s.runner w caller).trans running
  case runner.cancel => exact (cancel_halted s.runner caller).trans running
  case runner.deliver => exact (deliver_calls s.runner slot mail).2.2.trans running
  all_goals exact running

theorem Handled.step {log : List (Nat × Execution)} {s : Service} (handled : Handled log s) (w : σ)
    (action : Action) : Handled (log ++ action.executions provider budget (s, w))
      (step provider budget (s, w) action).1 := by
  have running := step_running budget returns handled.running w action
  obtain ⟨s', w', -, plain, change, serving, sent⟩ := step_executions provider budget s w action
  rw [plain] at running ⊢
  refine ⟨handled.kept.changed change serving sent, running, fun entry member => ?_⟩
  rcases List.mem_append.mp member with old | new
  · obtain ⟨id, kind, shows, finished⟩ := handled.shown entry old
    obtain ⟨phase, found, same⟩ := change.extends _ _ _ finished
    exact ⟨id, kind, shows, same _ rfl ▸ found⟩
  · generalize action.executions provider budget (s, w) = more at change new
    dsimp only at running
    generalize s'.runner = runner at change running ⊢
    cases change with
    | @polled _ caller record polled =>
      obtain ⟨execution, ran, rfl⟩ := List.mem_map.mp new
      cases polled with
      | waits => cases ran
      | @concludes _ task outcome _ phase found before settled after calls conclusion =>
        rw [running] at conclusion
        have here : runner.calls[caller]? = some ⟨task, phase⟩ := by
          rw [calls, getElem?_modify_phase, if_pos rfl, found]
          rfl
        cases conclusion with
        | executed started returned =>
          obtain rfl := List.mem_singleton.mp ran
          exact ⟨_, _, responseKind?_eq_some.mp returned, here⟩
        | _ => cases ran
    | _ => cases new

theorem Handled.run {log : List (Nat × Execution)} {s : Service} (handled : Handled log s) (w : σ)
    (actions : List Action) : Handled (log ++ executions provider budget (s, w) actions)
      (run provider budget (s, w) actions).1 := by
  induction actions generalizing log s w with
  | nil => rwa [executions, List.append_nil]
  | cons action rest ih =>
    rw [executions, ← List.append_assoc]
    exact ih (handled.step budget returns w action) _

theorem Parted.run {n : Nat} {verdict : Verdict} {kind : Response.Kind} (shows : Shows verdict kind)
    {log : List (Nat × Execution)} {s s' : Service} (parted : Parted n kind log s s') (w : σ)
    (actions : List Action) :
    ∃ s₁ w₁, Service.run (altered provider n verdict) budget (s', w, log.length) actions = (s₁, w₁) ∧
      amend n verdict log ++ executions (altered provider n verdict) budget
          (s', w, log.length) actions =
        amend n verdict (log ++ executions provider budget (s, w) actions) ∧
      Parted n kind (log ++ executions provider budget (s, w) actions)
        (Service.run provider budget (s, w) actions).1 s₁ := by
  induction actions generalizing log s s' w with
  | nil =>
    rw [executions, executions, List.append_nil, List.append_nil]
    exact ⟨_, _, rfl, rfl, parted⟩
  | cons action rest ih =>
    obtain ⟨s₁, stepped, amended, parted'⟩ := parted.step budget shows returns w action
    obtain ⟨s₂, w₂, ran, amended', parted''⟩ :=
      ih parted' (Service.step provider budget (s, w) action).2
    refine ⟨s₂, w₂, ?_, ?_, ?_⟩
    · rw [Service.run, List.foldl_cons, stepped]
      exact ran
    · rw [executions, executions, stepped, ← List.append_assoc, amended, amended', List.append_assoc]
    · rw [executions, ← List.append_assoc]
      exact parted''

end

theorem run_executions {σ : Type} (provider : Provider σ) (budget : Duration) (s : Service) (w : σ)
    (before : List Execution) (actions : List Action) :
    run (observed provider) budget (s, w, before) actions =
      ((run provider budget (s, w) actions).1, (run provider budget (s, w) actions).2,
        before ++ (executions provider budget (s, w) actions).map Prod.snd) := by
  induction actions generalizing s w before with
  | nil => rw [executions, List.map_nil, List.append_nil]; rfl
  | cons action rest ih =>
    obtain ⟨s', w', eq, plain, -⟩ := step_executions provider budget s w action
    have carried := (observed_carries provider before).step budget s (w, []) action
    rw [List.append_nil, eq] at carried
    rw [run, List.foldl_cons, carried, executions, plain, List.map_append, ← List.append_assoc, run,
      List.foldl_cons, plain]
    exact ih _ _ _

structure Accounts (log : List (Nat × Execution)) (s : Service) : Prop where
  once : (log.map Prod.fst).Nodup
  runs : ∀ caller, caller ∈ log.map Prod.fst ↔ ∃ id code result,
    s.runner.calls[caller]? = some ⟨.answer ⟨id, .run code⟩, .finished result⟩
  shown : ∀ entry ∈ log, ∃ id kind, Shows entry.2.verdict kind ∧ s.runner.calls[entry.1]? =
    some ⟨.answer ⟨id, .run entry.2.code⟩, .finished (.response ⟨id, kind⟩)⟩
  pings : ∀ (caller : Nat) (id : CorrelationId) (result : Result),
    s.runner.calls[caller]? = some ⟨.answer ⟨id, .ping⟩, .finished result⟩ →
    result = .response ⟨id, .ready⟩
  sent : ∀ response ∈ s.outbox, ∃ caller ∈ s.serving, answer? s.runner caller = some response

theorem Handled.accounts {log : List (Nat × Execution)} {s : Service} (handled : Handled log s)
    (ready : s.runner.status = .ready) : Accounts log s := by
  have consistent := handled.kept.consistent
  refine ⟨consistent.once, fun caller => ⟨fun executed => ?_, ?_⟩, handled.shown,
    consistent.pings ready, fun response out => ?_⟩
  · obtain ⟨entry, member, rfl⟩ := List.mem_map.mp executed
    obtain ⟨id, kind, -, finished⟩ := handled.shown entry member
    exact ⟨id, _, _, finished⟩
  · rintro ⟨id, code, result, finished⟩
    obtain ⟨execution, kind, logged, -⟩ := consistent.executes ready caller id code result finished
    exact List.mem_map.mpr ⟨_, logged, rfl⟩
  · obtain ⟨caller, serves, task, finished⟩ := consistent.sent response out
    exact ⟨caller, serves, by rw [answer?_eq, finished]; rfl⟩

/-- All that comes of a failure is a failure that the call which met it reports. -/
structure Contained (caller : Nat) (verdict : Verdict) (s s' : Service) : Prop where
  ready : s'.runner.status = .ready
  own : ∃ id code old message, Shows verdict (.failure message) ∧
    s.runner.calls[caller]? = some ⟨.answer ⟨id, .run code⟩, .finished (.response old)⟩ ∧
    s'.runner.calls[caller]? =
      some ⟨.answer ⟨id, .run code⟩, .finished (.response ⟨id, .failure message⟩)⟩ ∧
    Exchanged old ⟨id, .failure message⟩ s.outbox s'.outbox
  others : ∀ other, other ≠ caller → s'.runner.calls[other]? = s.runner.calls[other]?

theorem Parted.contained {n : Nat} {verdict : Verdict} {message : String}
    {log : List (Nat × Execution)} {s s' : Service} (parted : Parted n (.failure message) log s s')
    (shows : Shows verdict (.failure message)) (ready : s.runner.status = .ready) {caller : Nat}
    {execution : Execution} (made : log[n]? = some (caller, execution)) :
    Contained caller verdict s s' := by
  cases parted with
  | together early => exact absurd (List.getElem?_eq_some_iff.mp made).choose (by omega)
  | @apart own _ id code old outbox made' finished sent =>
    cases made.symm.trans made'
    refine ⟨ready, ⟨id, code, _, message, shows, finished, ?_, sent⟩, fun other apart => ?_⟩
    · rw [spoil, State.getElem?_setPhase, if_pos rfl, finished]
      rfl
    · rw [spoil, State.getElem?_setPhase, if_neg apart.symm]

/-- If the engine always comes back: what was executed is accounted for by the calls of a service
that is ready, and an execution that fails instead spoils the answer of its own call alone. -/
theorem failures_contained {σ : Type} (provider : Provider σ) (budget : Duration)
    (returns : ∀ w engine code how, (provider.execute w engine code).1 ≠ .halt how) (w : σ)
    (actions : List Action) (ready : (run provider budget ({}, w) actions).1.runner.status = .ready) :
    (run (observed provider) budget ({}, w, []) actions).2.2 =
      (executions provider budget ({}, w) actions).map Prod.snd ∧
    Accounts (executions provider budget ({}, w) actions) (run provider budget ({}, w) actions).1 ∧
    ∀ n caller execution, (executions provider budget ({}, w) actions)[n]? = some (caller, execution) →
      ∀ verdict, (∃ message, verdict = .error message) ∨ (∃ payload, verdict = .panic payload) →
        executions (altered provider n verdict) budget ({}, w, 0) actions =
          amend n verdict (executions provider budget ({}, w) actions) ∧
        Contained caller verdict (run provider budget ({}, w) actions).1
          (run (altered provider n verdict) budget ({}, w, 0) actions).1 := by
  refine ⟨?_, ?_, fun n caller execution made verdict fails => ?_⟩
  · rw [run_executions]
    rfl
  · have handled := Handled.begin.run budget returns w actions
    exact handled.accounts ready
  · obtain ⟨message, shows⟩ : ∃ message, Shows verdict (.failure message) := by
      rcases fails with ⟨message, rfl⟩ | ⟨message | _, rfl⟩
      · exact ⟨_, .error message⟩
      · exact ⟨_, .text message⟩
      · exact ⟨_, .other⟩
    have together : Parted n (.failure message) [] {} {} := .together (Nat.zero_le n)
    obtain ⟨s', w', ran, amended, parted⟩ := together.run budget returns shows w actions
    refine ⟨amended, ?_⟩
    rw [show run (altered provider n verdict) budget ({}, w, 0) actions = _ from ran]
    exact parted.contained shows ready made

def batch : List Action :=
  [.start, .post ⟨⟨"a"⟩, .run "x"⟩, .post ⟨⟨"b"⟩, .ping⟩, .post ⟨⟨"c"⟩, .run "y"⟩, .receive, .receive,
    .receive, .runner (.poll 0), .runner (.poll 1), .runner (.deliver 0 (.published 3)),
    .runner (.poll 0), .runner (.poll 3), .runner (.poll 2), .runner (.poll 1)]

theorem failures_contained_batch :
    executions slow ⟨1⟩ ({}, ()) batch =
      [(3, ⟨3, "y", .output ⟨some "y", none⟩⟩), (1, ⟨3, "x", .output ⟨some "x", none⟩⟩)] ∧
    (run slow ⟨1⟩ ({}, ()) batch).1.outbox =
      [⟨⟨"c"⟩, .result "y" ""⟩, ⟨⟨"b"⟩, .ready⟩, ⟨⟨"a"⟩, .result "x" ""⟩] ∧
    Contained 3 (.panic (.text "no")) (run slow ⟨1⟩ ({}, ()) batch).1
      (run (altered slow 0 (.panic (.text "no"))) ⟨1⟩ ({}, (), 0) batch).1 := by
  have returns : ∀ w engine code how, (slow.execute w engine code).1 ≠ .halt how := by
    intro w engine code how halted
    cases halted
  obtain ⟨-, -, contained⟩ := failures_contained slow ⟨1⟩ returns () batch rfl
  exact ⟨rfl, rfl, (contained 0 3 _ rfl _ (.inr ⟨_, rfl⟩)).2⟩

end Service

end Sandbox.Runner

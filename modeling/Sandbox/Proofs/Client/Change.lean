import Sandbox.Proofs.Client.Trace

/-!
Everything that one action of a client can do, case by case. Facts about runs are proved from these
cases; the sections of `step` are opened here only.
-/

namespace Sandbox.Client

/-! ## How calls are looked up -/

def Phase.given (reply : Except Failure Reply) : Phase → Phase
  | .waiting wait => .waiting { wait with reply := some reply }
  | phase => phase

def Call.given (reply : Except Failure Reply) (call : Call) : Call :=
  { call with phase := call.phase.given reply }

@[simp] theorem Call.given_ask (reply : Except Failure Reply) (call : Call) :
    (call.given reply).ask = call.ask := rfl

theorem Call.given_given (first last : Except Failure Reply) (call : Call) :
    (call.given first).given last = call.given last := by
  rcases call with ⟨ask, _ | wait | outcome | _⟩ <;> rfl

private theorem modify_congr {α : Type} {l : List α} {i : Nat} {f g : α → α}
    (same : ∀ a, l[i]? = some a → f a = g a) : l.modify i f = l.modify i g := by
  apply List.ext_getElem?
  intro j
  rw [List.getElem?_modify, List.getElem?_modify]
  by_cases here : i = j
  · subst here
    cases found : l[i]? with
    | none => rfl
    | some a => simp [same a found]
  · simp [here]

namespace State

variable (s : State)

def opened (ask : Ask) : State := { s with calls := s.calls ++ [⟨ask, .admitted⟩] }

def cleared : State :=
  { s with live := none, pending := [] }.settleAll s.pending (.error .resetInterrupted)

def teardown : List Effect := s.live.toList.map fun live => .destroyed live.generation

theorem settle_eq (caller : Nat) (reply : Except Failure Reply) :
    s.settle caller reply = { s with calls := s.calls.modify caller (Call.given reply) } := by
  rw [settle, phase?]
  rcases found : s.calls[caller]? with _ | ⟨ask, phase⟩
  · rw [modify_congr (g := id) (by simp [found]), List.modify_id]
    rfl
  · cases phase with
    | waiting wait =>
      simp only [Option.map_some, setPhase]
      rw [modify_congr (g := Call.given reply)]
      simp [found, Call.given, Phase.given]
    | _ =>
      rw [modify_congr (f := Call.given reply) (g := id)]
      · rw [List.modify_id]
        rfl
      · simp [found, Call.given, Phase.given]

theorem calls_settle (caller : Nat) (reply : Except Failure Reply) (i : Nat) :
    (s.settle caller reply).calls[i]? =
      if i = caller then s.calls[i]?.map (Call.given reply) else s.calls[i]? := by
  rw [settle_eq, List.getElem?_modify]
  by_cases here : i = caller
  · subst here
    simp
  · simp [here, Ne.symm here]

theorem calls_setPhase (caller : Nat) (phase : Phase) (i : Nat) :
    (s.setPhase caller phase).calls[i]? =
      if i = caller then s.calls[i]?.map fun call => { call with phase } else s.calls[i]? := by
  rw [setPhase, List.getElem?_modify]
  by_cases here : i = caller
  · subst here
    simp
  · simp [here, Ne.symm here]

theorem calls_settleAll (records : List Record) (reply : Except Failure Reply) (i : Nat) :
    (s.settleAll records reply).calls[i]? =
      if i ∈ records.map Record.caller then s.calls[i]?.map (Call.given reply)
      else s.calls[i]? := by
  induction records generalizing s with
  | nil => simp [settleAll]
  | cons record rest ih =>
    change ((s.settle record.caller reply).settleAll rest reply).calls[i]? = _
    rw [ih, calls_settle, List.map_cons]
    generalize rest.map Record.caller = callers
    by_cases here : i = record.caller <;> by_cases later : i ∈ callers
    · simp [← here, later, Function.comp_def, Call.given_given]
    · simp [← here, later]
    · simp [here, later]
    · simp [here, later]

theorem settleAll_eq (records : List Record) (reply : Except Failure Reply) :
    ∃ calls, s.settleAll records reply = { s with calls } := by
  induction records generalizing s with
  | nil => exact ⟨s.calls, rfl⟩
  | cons record rest ih =>
    obtain ⟨calls, eq⟩ := ih (s.settle record.caller reply)
    refine ⟨calls, eq.trans ?_⟩
    rw [settle_eq]

theorem calls_opened (ask : Ask) (i : Nat) :
    (s.opened ask).calls[i]? =
      if i = s.calls.length then some ⟨ask, .admitted⟩ else s.calls[i]? := by
  rw [opened, List.getElem?_append]
  by_cases old : i < s.calls.length
  · simp [old, Nat.ne_of_lt old]
  · by_cases here : i = s.calls.length
    · simp [here]
    · simp [old, here, List.getElem?_singleton]
      omega

theorem calls_cleared (i : Nat) :
    s.cleared.calls[i]? =
      if i ∈ s.pending.map Record.caller then
        s.calls[i]?.map (Call.given (.error .resetInterrupted))
      else s.calls[i]? :=
  calls_settleAll _ _ _ _

theorem cleared_eq : ∃ calls, s.cleared = { s with live := none, pending := [], calls } :=
  settleAll_eq _ _ _

end State

/-! ## The cases -/

def answer : Awaited → Response.Kind → Except Failure Reply
  | .handshake, .ready => .ok .ready
  | .handshake, .failure message => .error (.bootstrapFailure message)
  | .run, .result stdout stderr => .ok (.output ⟨stdout, stderr⟩)
  | .run, .failure message => .error (.executionFailure message)
  | awaited, kind => .error (.link (.mismatched (responseName kind) awaited))

def Live.told : Awaited → Response.Kind → Live → Live
  | .handshake, .ready, live => { live with ready := true }
  | _, _, live => live

theorem Live.told_of_ne {awaited : Awaited} {kind : Response.Kind}
    (other : ¬(awaited = .handshake ∧ kind = .ready)) : Live.told awaited kind = id := by
  funext live
  cases awaited <;> cases kind <;> first | rfl | exact absurd ⟨rfl, rfl⟩ other

@[simp] theorem Live.told_generation (awaited : Awaited) (kind : Response.Kind) (live : Live) :
    (Live.told awaited kind live).generation = live.generation := by
  cases awaited <;> cases kind <;> rfl

def resolution (ask : Ask) : Awaited → Except Failure Reply → Phase
  | _, .error cause => .finished (.error cause)
  | .handshake, .ok _ => match ask with
    | .ready _ => .finished (.ok none)
    | .run _ _ => .admitted
  | .run, .ok (.output streams) => .finished (.ok (some streams))
  | .run, .ok .ready => .finished (.error (.link .readyReplyToRun))

theorem onReady_eq (s : State) (caller : Nat) (ask : Ask) :
    onReady s caller ask = s.setPhase caller (resolution ask .handshake (.ok .ready)) := by
  cases ask <;> rfl

theorem takeReply_eq (s : State) (caller : Nat) (ask : Ask) (awaited : Awaited)
    (reply : Except Failure Reply) :
    takeReply s caller ask awaited reply = s.setPhase caller (resolution ask awaited reply) := by
  cases awaited with
  | handshake =>
    cases reply with
    | error cause => rfl
    | ok reply => cases ask <;> rfl
  | run => rcases reply with cause | _ | streams <;> rfl

inductive Provision (s : State) : List Effect → State → Prop
  | kept {live : Live} (held : s.live = some live) : Provision s [] s
  | fresh (absent : s.live = none) :
    Provision s
      [.created (s.generation + 1) (.ok ()), .posted (s.generation + 1) ⟨.warmup, .ping⟩ (.ok ())]
      { s with generation := s.generation + 1, live := some ⟨s.generation + 1, false⟩ }

inductive Dispatch (settings : Settings) (s : State) (caller : Nat) (awaited : Awaited)
    (kind : Request.Kind) (budget : Duration) : List Effect → State → Prop
  | registered {live : Live} (held : s.live = some live) :
    Dispatch settings s caller awaited kind budget
      [.posted live.generation ⟨settings.ids s.issued, kind⟩ (.ok ())]
      ({ s with
        issued := s.issued + 1
        pending := ⟨settings.ids s.issued, awaited, caller⟩ :: s.pending }.setPhase caller
          (.waiting
            { awaited, id := settings.ids s.issued, budget, deadline := s.now + budget }))
  | unposted {live : Live} (held : s.live = some live) (cause : Failure) :
    Dispatch settings s caller awaited kind budget
      [.posted live.generation ⟨settings.ids s.issued, kind⟩ (.error cause),
        .destroyed live.generation]
      ({ s with issued := s.issued + 1 }.cleared.finish caller (.error cause))

/-- The reply that a call goes by: the one that is there or, once its time is up and its record is
gone, what is there in its place. -/
inductive Replied (s : State) (wait : Wait) : Except Failure Reply → Prop
  | arrived {reply : Except Failure Reply} (unexpired : wait.expired = false)
    (replied : wait.reply = some reply) : Replied s wait reply
  | late (expired : wait.expired = true) (gone : s.record? wait.id = none) :
    Replied s wait (wait.reply.getD (.error .resetInterrupted))

inductive Change (settings : Settings) (s : State) : Action → List Effect → State → Prop
  | idle {action : Action} : Change settings s action [] s
  | advanced (span : Duration) :
    Change settings s (.advance span) [] { s with now := s.now + span }
  | cancelled {caller : Nat} {phase : Phase} (found : s.phase? caller = some phase)
    (active : phase.isActive = true) :
    Change settings s (.cancel caller) [] (s.setPhase caller .cancelled)
  | reset : Change settings s .reset s.teardown s.cleared
  | dropped : Change settings s .drop s.teardown { s.cleared with dropped := true }
  | crashed {generation : Nat} {reason : String}
    (current : s.live.map Live.generation = some generation) :
    Change settings s (.event generation (.crashed reason)) s.teardown s.cleared
  | answered {generation : Nat} {response : Response} {record : Record}
    (current : s.live.map Live.generation = some generation)
    (found : s.record? response.id = some record)
    (survives : record.awaited = .handshake → ∀ message, response.kind ≠ .failure message) :
    Change settings s (.event generation (.response response)) []
      ({ s.removeRecord response.id with
        live := s.live.map (Live.told record.awaited response.kind) }.settle record.caller
          (answer record.awaited response.kind))
  | failed {generation : Nat} {id : CorrelationId} {message : String} {record : Record}
    (current : s.live.map Live.generation = some generation) (found : s.record? id = some record)
    (handshake : record.awaited = .handshake) :
    Change settings s (.event generation (.response ⟨id, .failure message⟩)) s.teardown
      ((s.removeRecord id).settle record.caller (.error (.bootstrapFailure message))).cleared
  | refused {caller : Nat} {code : String} {budgets : Option Budgets}
    (found : s.calls[caller]? = some ⟨.run code budgets, .admitted⟩)
    (unready : s.isReady = false) :
    Change settings s (.proceed caller) [] (s.finish caller (.error .notReady))
  | sent {caller : Nat} {code : String} {budgets : Option Budgets} {effects : List Effect}
    {s' : State} (found : s.calls[caller]? = some ⟨.run code budgets, .admitted⟩)
    (ready : s.isReady = true)
    (dispatch : Dispatch settings s caller .run (.run code)
      ((Ask.run code budgets).execution settings) effects s') :
    Change settings s (.proceed caller) effects s'
  | noticed {caller : Nat} {ask : Ask} {wait : Wait}
    (found : s.calls[caller]? = some ⟨ask, .waiting wait⟩) (unexpired : wait.expired = false)
    (unreplied : wait.reply = none) (due : wait.deadline ≤ s.now) :
    Change settings s (.proceed caller) []
      (s.setPhase caller (.waiting { wait with expired := true }))
  | resolved {caller : Nat} {ask : Ask} {wait : Wait} {reply : Except Failure Reply}
    (found : s.calls[caller]? = some ⟨ask, .waiting wait⟩) (replied : Replied s wait reply) :
    Change settings s (.proceed caller) []
      (s.setPhase caller (resolution ask wait.awaited reply))
  | lapsed {caller : Nat} {ask : Ask} {wait : Wait} {record : Record}
    (found : s.calls[caller]? = some ⟨ask, .waiting wait⟩) (expired : wait.expired = true)
    (held : s.record? wait.id = some record) (handshake : wait.awaited = .handshake) :
    Change settings s (.proceed caller) []
      ((s.removeRecord wait.id).finish caller (.error (.initTimeout wait.budget)))
  | overran {caller : Nat} {ask : Ask} {wait : Wait} {record : Record}
    (found : s.calls[caller]? = some ⟨ask, .waiting wait⟩) (expired : wait.expired = true)
    (held : s.record? wait.id = some record) (run : wait.awaited = .run) :
    Change settings s (.proceed caller) s.teardown
      ((s.removeRecord wait.id).cleared.finish caller (.error (.executionTimeout wait.budget)))
  | uncreated {ask : Ask} (absent : s.live = none) (cause : Failure) :
    Change settings s (.begin ask) [.created (s.generation + 1) (.error cause)]
      ({ s.opened ask with generation := s.generation + 1 }.finish s.calls.length (.error cause))
  | unwarmed {ask : Ask} (absent : s.live = none) (cause : Failure) :
    Change settings s (.begin ask)
      [.created (s.generation + 1) (.ok ()),
        .posted (s.generation + 1) ⟨.warmup, .ping⟩ (.error cause), .destroyed (s.generation + 1)]
      ({ s.opened ask with generation := s.generation + 1 }.finish s.calls.length (.error cause))
  | entered {ask : Ask} (ready : s.isReady = true) :
    Change settings s (.begin ask) []
      ((s.opened ask).setPhase s.calls.length (resolution ask .handshake (.ok .ready)))
  | pinged {ask : Ask} {effects effects' : List Effect} {provided s' : State}
    (provision : Provision (s.opened ask) effects provided) (unready : provided.isReady = false)
    (dispatch : Dispatch settings provided s.calls.length .handshake .ping
      (ask.readiness settings) effects' s') :
    Change settings s (.begin ask) (effects ++ effects') s'

section
variable {σ : Type} (contexts : Contexts σ) (settings : Settings)

theorem reset_recorded (s : State) (w : σ) (record : List Effect) :
    ∃ w', reset contexts.recorded s (w, record) = (s.cleared, w', record ++ s.teardown) := by
  unfold reset State.teardown
  cases s.live with
  | none => exact ⟨w, by simp [State.cleared]⟩
  | some live => exact ⟨_, rfl⟩

theorem dispatch_recorded (s : State) (w : σ) (record : List Effect) (caller : Nat)
    (awaited : Awaited) (kind : Request.Kind) (budget : Duration) {live : Live}
    (held : s.live = some live) :
    ∃ effects s' w', dispatch contexts.recorded settings s (w, record) caller awaited kind budget =
        (s', w', record ++ effects) ∧
      Dispatch settings s caller awaited kind budget effects s' := by
  obtain ⟨now, live?, generation, issued, pending, calls, dropped⟩ := s
  dsimp only at held
  subst held
  simp only [dispatch]
  rcases post : contexts.post w live.generation ⟨settings.ids issued, kind⟩ with
    ⟨cause | _, posted⟩
  · simp only [recorded_post post]
    obtain ⟨w', eq⟩ := reset_recorded contexts
      ⟨now, some live, generation, issued + 1, pending, calls, dropped⟩ posted
      (record ++ [.posted live.generation ⟨settings.ids issued, kind⟩ (.error cause)])
    refine ⟨_, _, w', ?_, .unposted rfl cause⟩
    simp [eq, State.teardown]
  · simp only [recorded_post post]
    exact ⟨_, _, posted, rfl, .registered rfl⟩

theorem begin_recorded (s : State) (w : σ) (ask : Ask) :
    ∃ effects s' w', begin contexts.recorded settings s (w, []) ask = (s', w', effects) ∧
      Change settings s (.begin ask) effects s' := by
  obtain ⟨now, live?, generation, issued, pending, calls, dropped⟩ := s
  simp only [begin, seekReadiness, ensureContext]
  cases live? with
  | some live =>
    dsimp only
    split
    · rename_i ready
      rw [onReady_eq]
      exact ⟨_, _, w, rfl, .entered ready⟩
    · rename_i unready
      obtain ⟨effects, s', w', eq, dispatched⟩ := dispatch_recorded contexts settings
        ⟨now, some live, generation, issued, pending, calls ++ [⟨ask, .admitted⟩], dropped⟩ w []
        calls.length .handshake .ping (ask.readiness settings) rfl
      exact ⟨_, s', w', eq, .pinged (.kept rfl) (eq_false_of_ne_true unready) dispatched⟩
  | none =>
    dsimp only
    rcases create : contexts.create w (generation + 1) with ⟨cause | _, made⟩
    · simp only [recorded_create create]
      exact ⟨_, _, made, rfl, .uncreated rfl cause⟩
    · rcases post : contexts.post made (generation + 1) ⟨.warmup, .ping⟩ with ⟨cause | _, posted⟩
      · simp only [recorded_create create, recorded_post post]
        exact ⟨_, _, contexts.destroy posted (generation + 1), rfl, .unwarmed rfl cause⟩
      · simp only [recorded_create create, recorded_post post]
        obtain ⟨effects, s', w', eq, dispatched⟩ := dispatch_recorded contexts settings
          ⟨now, some ⟨generation + 1, false⟩, generation + 1, issued, pending,
            calls ++ [⟨ask, .admitted⟩], dropped⟩ posted
          ([] ++ [.created (generation + 1) (.ok ())] ++
            [.posted (generation + 1) ⟨.warmup, .ping⟩ (.ok ())])
          calls.length .handshake .ping (ask.readiness settings) rfl
        exact ⟨_, s', w', eq, .pinged (.fresh rfl) rfl dispatched⟩

theorem proceed_recorded (s : State) (w : σ) (caller : Nat) :
    ∃ effects s' w', proceed contexts.recorded settings s (w, []) caller = (s', w', effects) ∧
      Change settings s (.proceed caller) effects s' := by
  unfold proceed
  split
  · rename_i ask found
    cases ask with
    | ready budget => exact ⟨_, s, w, rfl, .idle⟩
    | run code budgets =>
      simp only [dispatchRun]
      split
      · rename_i ready
        obtain ⟨live, held⟩ : ∃ live, s.live = some live := by
          cases held : s.live with
          | none => simp [State.isReady, held] at ready
          | some live => exact ⟨live, rfl⟩
        obtain ⟨effects, s', w', eq, dispatched⟩ := dispatch_recorded contexts settings s w []
          caller .run (.run code) ((Ask.run code budgets).execution settings) held
        exact ⟨_, s', w', eq, .sent found ready dispatched⟩
      · rename_i unready
        exact ⟨_, _, w, rfl, .refused found (eq_false_of_ne_true unready)⟩
  · rename_i ask wait found
    split
    · rename_i expired
      unfold expire
      split
      · rename_i gone
        rw [takeReply_eq]
        exact ⟨_, _, w, rfl, .resolved found (.late expired gone)⟩
      · rename_i held handshake
        exact ⟨_, _, w, rfl, .lapsed found expired held handshake⟩
      · rename_i held run
        obtain ⟨w', eq⟩ := reset_recorded contexts (s.removeRecord wait.id) w []
        simp only [eq]
        exact ⟨_, _, w', rfl, .overran found expired held run⟩
    · rename_i unexpired
      replace unexpired := eq_false_of_ne_true unexpired
      split
      · rename_i reply replied
        rw [takeReply_eq]
        exact ⟨_, _, w, rfl, .resolved found (.arrived unexpired replied)⟩
      · rename_i unreplied
        split
        · rename_i due
          exact ⟨_, _, w, rfl, .noticed found unexpired unreplied due⟩
        · exact ⟨_, s, w, rfl, .idle⟩
  · exact ⟨_, s, w, rfl, .idle⟩

theorem onEvent_recorded (s : State) (w : σ) (generation : Nat) (event : Event) :
    ∃ effects s' w', onEvent contexts.recorded s (w, []) generation event = (s', w', effects) ∧
      Change settings s (.event generation event) effects s' := by
  unfold onEvent
  split
  · rename_i current
    cases event with
    | crashed reason =>
      obtain ⟨w', eq⟩ := reset_recorded contexts s w []
      exact ⟨_, _, w', eq, .crashed current⟩
    | response response =>
      simp only [onResponse]
      split
      · exact ⟨_, s, w, rfl, .idle⟩
      · rename_i record found
        obtain ⟨id, kind⟩ := response
        obtain ⟨id', awaited, caller⟩ := record
        cases awaited with
        | handshake =>
          cases kind with
          | ready => exact ⟨_, _, w, rfl, .answered current found (by simp)⟩
          | failure message =>
            obtain ⟨w', eq⟩ := reset_recorded contexts
              ((s.removeRecord id).settle caller (.error (.bootstrapFailure message))) w []
            refine ⟨_, _, w', eq, ?_⟩
            have torn : ((s.removeRecord id).settle caller
                (.error (.bootstrapFailure message))).teardown = s.teardown := by
              rw [State.settle_eq]
              rfl
            rw [torn]
            exact .failed current found rfl
          | result stdout stderr =>
            refine ⟨_, _, w, ?_, .answered current found (by simp)⟩
            rw [Live.told_of_ne (by simp), Option.map_id]
            rfl
        | run =>
          refine ⟨_, _, w, ?_, .answered current found (by simp)⟩
          rw [Live.told_of_ne (by simp), Option.map_id]
          cases kind <;> rfl
  · exact ⟨_, s, w, rfl, .idle⟩

theorem step_recorded (s : State) (w : σ) (action : Action) :
    ∃ effects s' w', step contexts.recorded settings (s, w, []) action = (s', w', effects) ∧
      Change settings s action effects s' := by
  cases action with
  | begin ask =>
    simp only [step]
    split
    · exact ⟨_, s, w, rfl, .idle⟩
    · exact begin_recorded contexts settings s w ask
  | proceed caller => exact proceed_recorded contexts settings s w caller
  | cancel caller =>
    simp only [step, cancel]
    split
    · rename_i phase found
      split
      · rename_i active
        exact ⟨_, _, w, rfl, .cancelled found active⟩
      · exact ⟨_, s, w, rfl, .idle⟩
    · exact ⟨_, s, w, rfl, .idle⟩
  | event generation event => exact onEvent_recorded contexts settings s w generation event
  | reset =>
    simp only [step]
    split
    · exact ⟨_, s, w, rfl, .idle⟩
    · obtain ⟨w', eq⟩ := reset_recorded contexts s w []
      exact ⟨_, _, w', eq, .reset⟩
  | advance span => exact ⟨_, _, w, rfl, .advanced span⟩
  | drop =>
    simp only [step, drop]
    split
    · exact ⟨_, s, w, rfl, .idle⟩
    · obtain ⟨w', eq⟩ := reset_recorded contexts s w []
      simp only [eq]
      exact ⟨_, _, w', rfl, .dropped⟩

theorem transition_change (s : State) (w : σ) (action : Action) :
    Change settings s action (transition contexts settings s w action).effects
      (transition contexts settings s w action).after := by
  obtain ⟨effects, s', w', eq, change⟩ := step_recorded contexts settings s w action
  simpa only [transition, eq] using change

end

/-! ## Courses -/

/-- A course is a sequence of changes that starts with a new client. Contexts may change between
actions in any way. -/
inductive Course (settings : Settings) : List Transition → State → Prop
  | start : Course settings [] {}
  | extend {past : List Transition} {s s' : State} {action : Action} {effects : List Effect} :
    Course settings past s → Change settings s action effects s' →
      Course settings (past ++ [⟨action, s, effects, s'⟩]) s'

theorem Course.run {σ : Type} (contexts : Contexts σ) {settings : Settings}
    {past : List Transition} {s : State} (course : Course settings past s) (w : σ)
    (actions : List Action) :
    Course settings (past ++ trace contexts settings (s, w) actions)
      (Client.run contexts settings (s, w) actions).1 := by
  induction actions generalizing past s w with
  | nil => simpa [trace, Client.run] using course
  | cons action rest ih =>
    have extended : Course settings (past ++ [transition contexts settings s w action])
        (step contexts settings (s, w) action).1 := by
      rw [← transition_after contexts settings s w action]
      exact course.extend (transition_change contexts settings s w action)
    have all := ih extended (step contexts settings (s, w) action).2
    rwa [List.append_assoc] at all

theorem course_of_run {σ : Type} (contexts : Contexts σ) (settings : Settings) (w : σ)
    (actions : List Action) :
    Course settings (trace contexts settings ({}, w) actions)
      (run contexts settings ({}, w) actions).1 :=
  Course.start.run contexts w actions

theorem Course.split {settings : Settings} {earlier later : List Transition} {t : Transition}
    {s : State} (course : Course settings (earlier ++ t :: later) s) :
    Course settings earlier t.before ∧ Change settings t.before t.action t.effects t.after := by
  generalize eq : earlier ++ t :: later = past at course
  induction course generalizing later with
  | start => simp at eq
  | extend before change ih =>
    rcases List.eq_nil_or_concat later with rfl | ⟨rest, last, rfl⟩
    · obtain ⟨rfl, same⟩ := List.append_inj' eq rfl
      obtain rfl := List.singleton_inj.mp same
      exact ⟨before, change⟩
    · rw [List.concat_eq_append, ← List.cons_append, ← List.append_assoc] at eq
      exact ih (List.append_inj' eq rfl).1

theorem Course.after_last {settings : Settings} {earlier : List Transition} {t : Transition}
    {s : State} (course : Course settings (earlier ++ [t]) s) : s = t.after := by
  generalize eq : earlier ++ [t] = past at course
  cases course with
  | start => simp at eq
  | extend before change =>
    obtain ⟨-, same⟩ := List.append_inj' eq rfl
    rw [List.singleton_inj.mp same]

end Sandbox.Client

import Mathlib.Data.Fintype.Option
import Mathlib.Logic.Equiv.Fintype
import Sandbox.Proofs.Client.Change

/-!
A client in later years. What a new client does, one with a past does as well, at a later time, with
higher numbers and under other ids: every action leads them to states that differ in that only.
-/

namespace Sandbox.Client

/-- How far a client is ahead of a new one, and what ids are called there. -/
structure Shift where
  now : Duration
  generation : Nat
  issued : Nat
  callers : Nat
  rename : Equiv.Perm CorrelationId

namespace Shift

section
variable (shift : Shift)

def wait (wait : Wait) : Wait :=
  { wait with id := shift.rename wait.id, deadline := shift.now + wait.deadline }

def phase : Phase → Phase
  | .waiting wait => .waiting (shift.wait wait)
  | phase => phase

def call (call : Call) : Call := { call with phase := shift.phase call.phase }

def record (record : Record) : Record :=
  { record with id := shift.rename record.id, caller := shift.callers + record.caller }

def live (live : Live) : Live := { live with generation := shift.generation + live.generation }

def request (request : Request) : Request := { request with id := shift.rename request.id }

def event : Event → Event
  | .response response => .response { response with id := shift.rename response.id }
  | .crashed reason => .crashed reason

def effect : Effect → Effect
  | .created generation result => .created (shift.generation + generation) result
  | .posted generation request result =>
    .posted (shift.generation + generation) (shift.request request) result
  | .destroyed generation => .destroyed (shift.generation + generation)

def action : Action → Action
  | .proceed caller => .proceed (shift.callers + caller)
  | .cancel caller => .cancel (shift.callers + caller)
  | .event generation event => .event (shift.generation + generation) (shift.event event)
  | action => action

def state (old : List Call) (s : State) : State where
  now := shift.now + s.now
  live := s.live.map shift.live
  generation := shift.generation + s.generation
  issued := shift.issued + s.issued
  pending := s.pending.map shift.record
  calls := old ++ s.calls.map shift.call
  dropped := s.dropped

@[simp] theorem phase_resolution (ask : Ask) (awaited : Awaited) (reply : Except Failure Reply) :
    shift.phase (resolution ask awaited reply) = resolution ask awaited reply := by
  rcases awaited with _ | _ <;> rcases reply with cause | _ | streams <;> cases ask <;> rfl

@[simp] theorem call_given (reply : Except Failure Reply) (call : Call) :
    shift.call (call.given reply) = (shift.call call).given reply := by
  rcases call with ⟨ask, _ | wait | outcome | _⟩ <;> rfl

end

/-! ## States -/

private theorem modify_front {α : Type} {front : List α} (back : List α) {i : Nat}
    (before : i < front.length) (f : α → α) :
    (front ++ back).modify i f = front.modify i f ++ back := by
  induction front generalizing i with
  | nil => simp at before
  | cons a front ih =>
    cases i with
    | zero => rfl
    | succ i => simp [ih (Nat.lt_of_succ_lt_succ before)]

private theorem modify_behind {α : Type} (front back : List α) (i : Nat) (f : α → α) :
    (front ++ back).modify (front.length + i) f = front ++ back.modify i f := by
  induction front with
  | nil => simp
  | cons a front ih => simp [Nat.add_right_comm _ 1, ih]

section
variable {shift : Shift} {old : List Call} (width : old.length = shift.callers) (s : State)
include width

theorem found (caller : Nat) :
    (shift.state old s).calls[shift.callers + caller]? = s.calls[caller]?.map shift.call := by
  rw [← width, state, List.getElem?_append_right (Nat.le_add_right _ _), Nat.add_sub_cancel_left,
    List.getElem?_map]

theorem length : (shift.state old s).calls.length = shift.callers + s.calls.length := by
  simp [state, width]

private theorem calls_modify {f g : Call → Call}
    (commutes : ∀ call, shift.call (f call) = g (shift.call call)) (caller : Nat) :
    old ++ (s.calls.modify caller f).map shift.call =
      (old ++ s.calls.map shift.call).modify (shift.callers + caller) g := by
  rw [← width, modify_behind]
  congr 1
  apply List.ext_getElem?
  intro i
  simp only [List.getElem?_map, List.getElem?_modify, Option.map_eq_map, Option.map_map]
  congr 1
  funext call
  simp only [Function.comp_apply]
  split
  · exact commutes call
  · rfl

theorem state_setPhase (caller : Nat) (phase : Phase) :
    shift.state old (s.setPhase caller phase) =
      (shift.state old s).setPhase (shift.callers + caller) (shift.phase phase) := by
  rw [state, State.setPhase, calls_modify width s]
  · rfl
  · exact fun _ => rfl

omit width in
theorem state_setPhase_old {caller : Nat} (before : caller < old.length) (phase : Phase) :
    (shift.state old s).setPhase caller phase =
      shift.state (old.modify caller fun call => { call with phase }) s := by
  simp only [State.setPhase, state, modify_front _ before]

theorem state_settle (caller : Nat) (reply : Except Failure Reply) :
    shift.state old (s.settle caller reply) =
      (shift.state old s).settle (shift.callers + caller) reply := by
  rw [State.settle_eq, State.settle_eq, state, calls_modify width s (shift.call_given reply)]
  rfl

theorem state_settleAll (records : List Record) (reply : Except Failure Reply) :
    shift.state old (s.settleAll records reply) =
      (shift.state old s).settleAll (records.map shift.record) reply := by
  induction records generalizing s with
  | nil => rfl
  | cons record rest ih =>
    change shift.state old ((s.settle record.caller reply).settleAll rest reply) =
      ((shift.state old s).settle (shift.callers + record.caller) reply).settleAll _ reply
    rw [ih, state_settle width]

omit width in
theorem state_opened (ask : Ask) :
    shift.state old (s.opened ask) = (shift.state old s).opened ask := by
  simp [state, State.opened, call, phase]

theorem state_cleared : shift.state old s.cleared = (shift.state old s).cleared :=
  state_settleAll width _ _ _

omit width

theorem state_record? (id : CorrelationId) :
    (shift.state old s).record? (shift.rename id) = (s.record? id).map shift.record := by
  have same : (fun held => decide (held.id = shift.rename id)) ∘ shift.record =
      fun held => decide (held.id = id) := by
    funext held
    simp [record]
  simp only [State.record?, state, List.find?_map, same]

theorem state_removeRecord (id : CorrelationId) :
    shift.state old (s.removeRecord id) = (shift.state old s).removeRecord (shift.rename id) := by
  simp [State.removeRecord, state, record, List.filter_map, Function.comp_def]

@[simp] theorem state_isReady : (shift.state old s).isReady = s.isReady := by
  cases held : s.live <;> simp [State.isReady, state, live, held]

end

/-! ## Contexts -/

section
variable {σ τ : Type}

/-- Contexts that answer a shifted client as others answer the client that is not. -/
structure Mirrors (shift : Shift) (contexts : Contexts σ) (others : Contexts τ)
    (same : σ → τ → Prop) : Prop where
  create : ∀ {w v}, same w v → ∀ {generation}, 0 < generation → ∃ result w' v',
    contexts.create w (shift.generation + generation) = (result, w') ∧
      others.create v generation = (result, v') ∧ same w' v'
  post : ∀ {w v}, same w v → ∀ {generation}, 0 < generation → ∀ request, ∃ result w' v',
    contexts.post w (shift.generation + generation) (shift.request request) = (result, w') ∧
      others.post v generation request = (result, v') ∧ same w' v'
  destroy : ∀ {w v}, same w v → ∀ {generation}, 0 < generation →
    same (contexts.destroy w (shift.generation + generation)) (others.destroy v generation)

variable {shift : Shift} {contexts : Contexts σ} {others : Contexts τ} {same : σ → τ → Prop}

def Recorded (shift : Shift) (same : σ → τ → Prop) (left : σ × List Effect)
    (right : τ × List Effect) : Prop :=
  same left.1 right.1 ∧ left.2 = right.2.map shift.effect

def seen (shift : Shift) (contexts : Contexts σ) : Contexts σ where
  create w generation := contexts.create w (shift.generation + generation)
  post w generation request :=
    contexts.post w (shift.generation + generation) (shift.request request)
  destroy w generation := contexts.destroy w (shift.generation + generation)

theorem mirrors_seen (shift : Shift) (contexts : Contexts σ) :
    shift.Mirrors contexts (shift.seen contexts) Eq where
  create := by
    rintro w _ rfl generation -
    exact ⟨_, _, _, rfl, rfl, rfl⟩
  post := by
    rintro w _ rfl generation - request
    exact ⟨_, _, _, rfl, rfl, rfl⟩
  destroy := by
    rintro w _ rfl generation -
    rfl

theorem Mirrors.recorded (mirrors : shift.Mirrors contexts others same) :
    shift.Mirrors contexts.recorded others.recorded (shift.Recorded same) where
  create := by
    rintro ⟨w, record⟩ ⟨v, record'⟩ ⟨start, rfl⟩ generation positive
    obtain ⟨result, w', v', left, right, after⟩ := mirrors.create start positive
    refine ⟨result, _, _, recorded_create left _, recorded_create right _, after, ?_⟩
    simp [effect]
  post := by
    rintro ⟨w, record⟩ ⟨v, record'⟩ ⟨start, rfl⟩ generation positive request
    obtain ⟨result, w', v', left, right, after⟩ := mirrors.post start positive request
    refine ⟨result, _, _, recorded_post left _, recorded_post right _, after, ?_⟩
    simp [effect]
  destroy := by
    rintro ⟨w, record⟩ ⟨v, record'⟩ ⟨start, rfl⟩ generation positive
    refine ⟨mirrors.destroy start positive, ?_⟩
    simp [Contexts.recorded, effect]

/-! ## Actions -/

def Behind (shift : Shift) (old : List Call) (same : σ → τ → Prop) (left : State × σ)
    (right : State × τ) : Prop :=
  left.1 = shift.state old right.1 ∧ same left.2 right.2

def Counted (s : State) : Prop := ∀ live, s.live = some live → 0 < live.generation

variable {old : List Call} (mirrors : shift.Mirrors contexts others same) {s : State} {w : σ} {v : τ}
include mirrors

theorem ensureContext_behind (old : List Call) (reserved : shift.rename .warmup = .warmup)
    (counted : Counted s) (start : same w v) :
    ∃ result left right, ensureContext contexts (shift.state old s) w = (result, left) ∧
      ensureContext others s v = (result, right) ∧ shift.Behind old same left right ∧
      Counted right.1 ∧ right.1.issued = s.issued := by
  unfold ensureContext
  have warmup : shift.request ⟨.warmup, .ping⟩ = ⟨.warmup, .ping⟩ := by
    simp [request, reserved]
  cases held : s.live with
  | some live =>
    simp only [state, held, Option.map_some]
    exact ⟨_, _, _, rfl, rfl, ⟨by simp [state, held], start⟩, counted, rfl⟩
  | none =>
    have positive := Nat.succ_pos s.generation
    have nowhere : ∀ live : Live, none = some live → 0 < live.generation := by
      rintro live ⟨⟩
    simp only [state, held, Option.map_none, Nat.add_assoc]
    obtain ⟨result, w', v', left, right, made⟩ := mirrors.create start positive
    rw [left, right]
    rcases result with cause | _
    · exact ⟨_, _, _, rfl, rfl, ⟨by simp [state], made⟩, nowhere, rfl⟩
    · obtain ⟨result, w', v', left, right, posted⟩ := mirrors.post made positive ⟨.warmup, .ping⟩
      rw [warmup] at left
      simp only [left, right]
      rcases result with cause | _
      · exact ⟨_, _, _, rfl, rfl, ⟨by simp [state], mirrors.destroy posted positive⟩,
          nowhere, rfl⟩
      · refine ⟨_, _, _, rfl, rfl, ⟨by simp [state, Shift.live], posted⟩, ?_, rfl⟩
        rintro live ⟨⟩
        exact positive

variable (width : old.length = shift.callers)
include width

omit mirrors in
theorem Behind.setPhase {left : State × σ} {right : State × τ}
    (behind : shift.Behind old same left right) (caller : Nat) (phase : Phase) :
    shift.Behind old same
      (left.1.setPhase (shift.callers + caller) (shift.phase phase), left.2)
      (right.1.setPhase caller phase, right.2) := by
  refine ⟨?_, behind.2⟩
  rw [behind.1, state_setPhase width]

theorem reset_behind (counted : Counted s) (start : same w v) :
    shift.Behind old same (reset contexts (shift.state old s) w) (reset others s v) := by
  refine ⟨(state_cleared width s).symm, ?_⟩
  unfold reset
  cases held : s.live with
  | none =>
    simp only [state, held, Option.map_none]
    exact start
  | some live =>
    simp only [state, held, Option.map_some]
    exact mirrors.destroy start (counted live held)

theorem dispatch_behind {settings fresh : Settings} (counted : Counted s) (start : same w v)
    (issues : shift.rename (fresh.ids s.issued) = settings.ids (shift.issued + s.issued))
    (caller : Nat) (awaited : Awaited) (kind : Request.Kind) (budget : Duration) :
    shift.Behind old same
      (dispatch contexts settings (shift.state old s) w (shift.callers + caller) awaited kind budget)
      (dispatch others fresh s v caller awaited kind budget) := by
  unfold dispatch
  cases held : s.live with
  | none =>
    have absent : (shift.state old s).live = none := by simp [state, held]
    simp only [absent]
    exact ⟨(state_setPhase width s caller (.finished (.error .notReady))).symm, start⟩
  | some live =>
    have here : (shift.state old s).live = some (shift.live live) := by simp [state, held]
    obtain ⟨result, w', v', left, right, posted⟩ :=
      mirrors.post start (counted live held) ⟨fresh.ids s.issued, kind⟩
    have asked : contexts.post w (shift.live live).generation
        ⟨settings.ids (shift.state old s).issued, kind⟩ = (result, w') := by
      rwa [request, issues] at left
    simp only [here, asked, right]
    rcases result with cause | _
    · have reset := reset_behind mirrors width
        (s := { s with live := some live, issued := s.issued + 1 }) (held ▸ counted) posted
      exact reset.setPhase width caller (.finished (.error cause))
    · have timely : (shift.state old s).now + budget = shift.now + (s.now + budget) :=
        congrArg Duration.mk (Nat.add_assoc _ _ _)
      have issued : settings.ids (shift.state old s).issued = shift.rename (fresh.ids s.issued) :=
        issues.symm
      rw [timely, issued]
      let registered : State :=
        { s with
          live := some live
          issued := s.issued + 1
          pending := ⟨fresh.ids s.issued, awaited, caller⟩ :: s.pending }
      have behind : shift.Behind old same (shift.state old registered, w') (registered, v') :=
        ⟨rfl, posted⟩
      exact behind.setPhase width caller
        (.waiting { awaited, id := fresh.ids s.issued, budget, deadline := s.now + budget })

structure Renames (shift : Shift) (settings fresh : Settings) (count : Nat) : Prop where
  budgets : fresh.budgets = settings.budgets
  reserved : shift.rename .warmup = .warmup
  issues : ∀ n < count, shift.rename (fresh.ids n) = settings.ids (shift.issued + n)

omit mirrors width in
/-- Ids that are issued once and not to warm-ups can be renamed to others of that kind. -/
theorem exists_renames (ahead : Shift) {settings fresh : Settings}
    (budgets : fresh.budgets = settings.budgets) (distinct : Function.Injective settings.ids)
    (distinct' : Function.Injective fresh.ids) (reserved : ∀ n, settings.ids n ≠ .warmup)
    (reserved' : ∀ n, fresh.ids n ≠ .warmup) (count : Nat) :
    ∃ rename, { ahead with rename }.Renames settings fresh count := by
  let names : Option (Fin count) → CorrelationId := fun n => n.elim .warmup fun n => fresh.ids n
  let others : Option (Fin count) → CorrelationId :=
    fun n => n.elim .warmup fun n => settings.ids (ahead.issued + n)
  have names_inj : Function.Injective names := by
    rintro (_ | a) (_ | b) same
    · rfl
    · exact absurd same.symm (reserved' b)
    · exact absurd same (reserved' a)
    · exact congrArg some (Fin.ext (distinct' same))
  have others_inj : Function.Injective others := by
    rintro (_ | a) (_ | b) same
    · rfl
    · exact absurd same.symm (reserved _)
    · exact absurd same (reserved _)
    · exact congrArg some (Fin.ext (Nat.add_left_cancel (distinct same)))
  obtain ⟨rename, renamed⟩ := Equiv.Perm.exists_extending_pair names others names_inj others_inj
  exact ⟨rename, budgets, renamed none, fun n within => renamed (some ⟨n, within⟩)⟩

theorem begin_behind {settings fresh : Settings} {count : Nat}
    (renames : shift.Renames settings fresh count) (counted : Counted s) (issued : s.issued < count)
    (start : same w v) (ask : Ask) :
    shift.Behind old same (begin contexts settings (shift.state old s) w ask)
      (begin others fresh s v ask) := by
  have budget : ask.readiness settings = ask.readiness fresh := by
    cases ask <;> simp [Ask.readiness, renames.budgets]
  simp only [begin, length width]
  change shift.Behind old same
    (seekReadiness contexts settings ((shift.state old s).opened ask) w
      (shift.callers + s.calls.length) ask)
    (seekReadiness others fresh (s.opened ask) v s.calls.length ask)
  rw [← state_opened]
  obtain ⟨result, ⟨provided, w'⟩, ⟨s', v'⟩, left, right, ⟨behind, after⟩, counted', same_issued⟩ :=
    ensureContext_behind mirrors old renames.reserved
      (show Counted (s.opened ask) from counted) start
  dsimp only at behind after counted' same_issued
  subst behind
  rw [seekReadiness, seekReadiness, left, right]
  have provided : shift.Behind old same (shift.state old s', w') (s', v') := ⟨rfl, after⟩
  rcases result with cause | _
  · exact provided.setPhase width s.calls.length (.finished (.error cause))
  · by_cases ready : s'.isReady = true
    · have entered := provided.setPhase width s.calls.length (resolution ask .handshake (.ok .ready))
      rw [phase_resolution, ← onReady_eq, ← onReady_eq] at entered
      simpa only [state_isReady, ready, if_true] using entered
    · have issues := renames.issues s'.issued (same_issued ▸ issued)
      have dispatched := dispatch_behind mirrors width counted' after issues s.calls.length .handshake
        .ping (ask.readiness fresh)
      simpa only [state_isReady, ready, budget, Bool.false_eq_true, if_false] using dispatched

theorem expire_behind (counted : Counted s) (start : same w v) (caller : Nat) (ask : Ask)
    (wait : Wait) :
    shift.Behind old same
      (expire contexts (shift.state old s) w (shift.callers + caller) ask (shift.wait wait))
      (expire others s v caller ask wait) := by
  have record : (shift.state old s).record? (shift.rename wait.id) =
      (s.record? wait.id).map shift.record := state_record? s wait.id
  simp only [expire, Shift.wait, record]
  cases held : s.record? wait.id with
  | none =>
    have behind : shift.Behind old same (shift.state old s, w) (s, v) := ⟨rfl, start⟩
    have taken := behind.setPhase width caller
      (resolution ask wait.awaited (wait.reply.getD (.error .resetInterrupted)))
    rw [phase_resolution, ← takeReply_eq, ← takeReply_eq] at taken
    exact taken
  | some record =>
    have removed : shift.Behind old same
        ((shift.state old s).removeRecord (shift.rename wait.id), w)
        (s.removeRecord wait.id, v) := ⟨(state_removeRecord s wait.id).symm, start⟩
    cases wait.awaited with
    | handshake => exact removed.setPhase width caller (.finished (.error (.initTimeout wait.budget)))
    | run =>
      have reset := reset_behind mirrors width (s := s.removeRecord wait.id) counted start
      rw [state_removeRecord] at reset
      exact reset.setPhase width caller (.finished (.error (.executionTimeout wait.budget)))

theorem proceed_behind {settings fresh : Settings} {count : Nat}
    (renames : shift.Renames settings fresh count) (counted : Counted s) (issued : s.issued < count)
    (start : same w v) (caller : Nat) :
    shift.Behind old same (proceed contexts settings (shift.state old s) w (shift.callers + caller))
      (proceed others fresh s v caller) := by
  have behind : shift.Behind old same (shift.state old s, w) (s, v) := ⟨rfl, start⟩
  rw [proceed, proceed, found width]
  rcases s.calls[caller]? with _ | ⟨ask, _ | ⟨awaited, id, budget, deadline, reply, expired⟩ | outcome | _⟩
  · exact behind
  · cases ask with
    | ready budget => exact behind
    | run code budgets =>
      have budget : (Ask.run code budgets).execution settings =
          (Ask.run code budgets).execution fresh := by
        simp [Ask.execution, renames.budgets]
      simp only [Option.map_some, call, phase, dispatchRun, state_isReady, budget]
      split
      · exact dispatch_behind mirrors width counted start (renames.issues _ issued) _ _ _ _
      · exact behind.setPhase width caller (.finished (.error .notReady))
  · simp only [Option.map_some, call, phase, Shift.wait]
    cases expired with
    | true =>
      exact expire_behind mirrors width counted start caller ask
        ⟨awaited, id, budget, deadline, reply, true⟩
    | false =>
      cases reply with
      | some reply =>
        have taken := behind.setPhase width caller (resolution ask awaited reply)
        rw [phase_resolution, ← takeReply_eq, ← takeReply_eq] at taken
        exact taken
      | none =>
        have due : shift.now + deadline ≤ (shift.state old s).now ↔ deadline ≤ s.now :=
          Nat.add_le_add_iff_left
        simp only [due, Bool.false_eq_true, if_false]
        split
        · exact behind.setPhase width caller
            (.waiting { awaited, id, budget, deadline, expired := true })
        · exact behind
  · exact behind
  · exact behind

theorem onResponse_behind (counted : Counted s) (start : same w v) (response : Response) :
    shift.Behind old same
      (onResponse contexts (shift.state old s) w ⟨shift.rename response.id, response.kind⟩)
      (onResponse others s v response) := by
  have record : (shift.state old s).record? (shift.rename response.id) =
      (s.record? response.id).map shift.record := state_record? s response.id
  have removed : shift.state old (s.removeRecord response.id) =
      (shift.state old s).removeRecord (shift.rename response.id) :=
    state_removeRecord s response.id
  simp only [onResponse, record]
  cases held : s.record? response.id with
  | none => exact ⟨rfl, start⟩
  | some record =>
    have settled : ∀ reply, shift.Behind old same
        (((shift.state old s).removeRecord (shift.rename response.id)).settle
          (shift.callers + record.caller) reply, w)
        ((s.removeRecord response.id).settle record.caller reply, v) := by
      intro reply
      refine ⟨?_, start⟩
      rw [state_settle width, removed]
    rcases record with ⟨id, _ | _, caller⟩ <;> rcases response with ⟨id', _ | streams | message⟩
    · refine ⟨?_, start⟩
      rw [state_settle width]
      simp [state, State.removeRecord, Function.comp_def, List.filter_map, Shift.record, Shift.live]
    · exact settled _
    · have counted' : Counted
          ((s.removeRecord id').settle caller (.error (.bootstrapFailure message))) := by
        rw [State.settle_eq]
        exact counted
      have reset : shift.Behind old same _ _ := reset_behind mirrors width counted' start
      rw [state_settle width, removed] at reset
      exact reset
    · exact settled _
    · exact settled _
    · exact settled _

theorem onEvent_behind (counted : Counted s) (start : same w v) (generation : Nat) (event : Event) :
    shift.Behind old same
      (onEvent contexts (shift.state old s) w (shift.generation + generation) (shift.event event))
      (onEvent others s v generation event) := by
  have current : (shift.state old s).live.map Live.generation = some (shift.generation + generation) ↔
      s.live.map Live.generation = some generation := by
    cases held : s.live <;> simp [state, held, Shift.live]
  simp only [onEvent, current]
  split
  · cases event with
    | response response => exact onResponse_behind mirrors width counted start response
    | crashed reason => exact reset_behind mirrors width counted start
  · exact ⟨rfl, start⟩

omit mirrors in
theorem cancel_behind (caller : Nat) :
    cancel (shift.state old s) (shift.callers + caller) = shift.state old (cancel s caller) := by
  rw [cancel, cancel, State.phase?, State.phase?, found width]
  rcases s.calls[caller]? with _ | ⟨ask, _ | wait | outcome | _⟩
  · rfl
  · exact (state_setPhase width s caller .cancelled).symm
  · exact (state_setPhase width s caller .cancelled).symm
  · rfl
  · rfl

theorem step_behind {settings fresh : Settings} {count : Nat}
    (renames : shift.Renames settings fresh count) (counted : Counted s) (issued : s.issued < count)
    (start : same w v) {action : Action} (stays : action ≠ .drop) :
    shift.Behind old same (step contexts settings (shift.state old s, w) (shift.action action))
      (step others fresh (s, v) action) := by
  cases action with
  | begin ask =>
    change shift.Behind old same (if s.dropped then _ else _) (if s.dropped then _ else _)
    split
    · exact ⟨rfl, start⟩
    · exact begin_behind mirrors width renames counted issued start ask
  | proceed caller => exact proceed_behind mirrors width renames counted issued start caller
  | cancel caller => exact ⟨cancel_behind width caller, start⟩
  | event generation event => exact onEvent_behind mirrors width counted start generation event
  | reset =>
    change shift.Behind old same (if s.dropped then _ else _) (if s.dropped then _ else _)
    split
    · exact ⟨rfl, start⟩
    · exact reset_behind mirrors width counted start
  | advance span =>
    refine ⟨?_, start⟩
    have later : shift.now + s.now + span = shift.now + (s.now + span) :=
      congrArg Duration.mk (Nat.add_assoc _ _ _)
    simp only [step, action, state, later]
  | drop => exact absurd rfl stays

end

end Shift

end Sandbox.Client

import Sandbox.Client.Step

/-!
The trace of a client's run: for every action the states around it, and what was done with contexts
on the way. Keeping the record changes neither the client nor the contexts.
-/

namespace Sandbox.Client

inductive Effect
  | created (generation : Nat) (result : Except Failure Unit)
  | posted (generation : Nat) (request : Request) (result : Except Failure Unit)
  | destroyed (generation : Nat)

structure Transition where
  action : Action
  before : State
  effects : List Effect
  after : State

section
variable {σ : Type} (contexts : Contexts σ) (settings : Settings)

def Contexts.recorded : Contexts (σ × List Effect) where
  create := fun (w, record) generation =>
    let (result, w) := contexts.create w generation
    (result, w, record ++ [.created generation result])
  post := fun (w, record) generation request =>
    let (result, w) := contexts.post w generation request
    (result, w, record ++ [.posted generation request result])
  destroy := fun (w, record) generation =>
    (contexts.destroy w generation, record ++ [.destroyed generation])

def transition (s : State) (w : σ) (action : Action) : Transition :=
  let (after, _, effects) := step contexts.recorded settings (s, w, []) action
  { action, before := s, effects, after }

def trace : State × σ → List Action → List Transition
  | _, [] => []
  | start, action :: rest =>
    transition contexts settings start.1 start.2 action
      :: trace (step contexts settings start action) rest

def forget (result : State × σ × List Effect) : State × σ := (result.1, result.2.1)

variable {contexts} in
theorem recorded_create {w made : σ} {generation : Nat} {result : Except Failure Unit}
    (create : contexts.create w generation = (result, made)) (record : List Effect) :
    contexts.recorded.create (w, record) generation =
      (result, made, record ++ [.created generation result]) := by
  simp [Contexts.recorded, create]

variable {contexts} in
theorem recorded_post {w posted : σ} {generation : Nat} {request : Request}
    {result : Except Failure Unit} (post : contexts.post w generation request = (result, posted))
    (record : List Effect) :
    contexts.recorded.post (w, record) generation request =
      (result, posted, record ++ [.posted generation request result]) := by
  simp [Contexts.recorded, post]

theorem reset_forget (s : State) (w : σ) (record : List Effect) :
    forget (reset contexts.recorded s (w, record)) = reset contexts s w := by
  unfold reset
  cases s.live <;> rfl

theorem ensureContext_forget (s : State) (w : σ) (record : List Effect) :
    ((ensureContext contexts.recorded s (w, record)).1,
      forget (ensureContext contexts.recorded s (w, record)).2) = ensureContext contexts s w := by
  unfold ensureContext
  cases s.live with
  | some live => rfl
  | none =>
    rcases create : contexts.create w (s.generation + 1) with ⟨_ | _, made⟩
    · simp only [recorded_create create, create]
      rfl
    · rcases post : contexts.post made (s.generation + 1) ⟨.warmup, .ping⟩ with ⟨_ | _, posted⟩ <;>
        simp only [recorded_create create, recorded_post post, create, post] <;> rfl

theorem dispatch_forget (s : State) (w : σ) (record : List Effect) (caller : Nat)
    (awaited : Awaited) (kind : Request.Kind) (budget : Duration) :
    forget (dispatch contexts.recorded settings s (w, record) caller awaited kind budget) =
      dispatch contexts settings s w caller awaited kind budget := by
  unfold dispatch
  cases s.live with
  | none => rfl
  | some live =>
    rcases post : contexts.post w live.generation ⟨settings.ids s.issued, kind⟩ with
      ⟨cause | _, posted⟩ <;> simp only [recorded_post post, post] <;> rfl

theorem begin_forget (s : State) (w : σ) (record : List Effect) (ask : Ask) :
    forget (begin contexts.recorded settings s (w, record) ask) =
      begin contexts settings s w ask := by
  simp only [begin, seekReadiness]
  rw [← ensureContext_forget contexts _ w record]
  rcases ensureContext contexts.recorded _ (w, record) with ⟨cause | _, s', w', record'⟩
  · rfl
  · by_cases ready : s'.isReady = true
    · simp only [ready, if_true, forget]
    · simp only [ready, forget]
      exact dispatch_forget _ _ _ _ _ _ _ _ _

theorem expire_forget (s : State) (w : σ) (record : List Effect) (caller : Nat) (ask : Ask)
    (wait : Wait) :
    forget (expire contexts.recorded s (w, record) caller ask wait) =
      expire contexts s w caller ask wait := by
  unfold expire
  split
  · rfl
  · rfl
  · simp only [← reset_forget contexts _ w record]
    rfl

theorem proceed_forget (s : State) (w : σ) (record : List Effect) (caller : Nat) :
    forget (proceed contexts.recorded settings s (w, record) caller) =
      proceed contexts settings s w caller := by
  unfold proceed
  split
  · unfold dispatchRun
    split
    · rfl
    · split
      · exact dispatch_forget _ _ _ _ _ _ _ _ _
      · rfl
  · split
    · exact expire_forget _ _ _ _ _ _ _
    · split
      · rfl
      · split <;> rfl
  · rfl

theorem onEvent_forget (s : State) (w : σ) (record : List Effect) (generation : Nat)
    (event : Event) :
    forget (onEvent contexts.recorded s (w, record) generation event) =
      onEvent contexts s w generation event := by
  unfold onEvent
  split
  · cases event with
    | response response =>
      simp only [onResponse]
      split
      · rfl
      · split
        · rfl
        · exact reset_forget _ _ _ _
        · rfl
        · rfl
        · rfl
    | crashed reason => exact reset_forget _ _ _ _
  · rfl

theorem step_forget (s : State) (w : σ) (record : List Effect) (action : Action) :
    forget (step contexts.recorded settings (s, w, record) action) =
      step contexts settings (s, w) action := by
  cases action with
  | begin ask =>
    simp only [step]
    split
    · rfl
    · exact begin_forget _ _ _ _ _ _
  | proceed caller => exact proceed_forget _ _ _ _ _ _
  | cancel caller => rfl
  | event generation event => exact onEvent_forget _ _ _ _ _ _
  | reset =>
    simp only [step]
    split
    · rfl
    · exact reset_forget _ _ _ _
  | advance span => rfl
  | drop =>
    simp only [step, drop]
    split
    · rfl
    · simp only [← reset_forget contexts s w record]
      rfl

theorem transition_after (s : State) (w : σ) (action : Action) :
    (transition contexts settings s w action).after = (step contexts settings (s, w) action).1 :=
  congrArg Prod.fst (step_forget contexts settings s w [] action)

theorem trace_split_run {start : State × σ} {actions : List Action}
    {earlier later : List Transition} {t : Transition}
    (split : trace contexts settings start actions = earlier ++ t :: later) :
    ∃ first rest, actions = first ++ t.action :: rest ∧
      earlier = trace contexts settings start first ∧
      t = transition contexts settings (run contexts settings start first).1
        (run contexts settings start first).2 t.action ∧
      later = trace contexts settings (run contexts settings start (first ++ [t.action])) rest := by
  induction actions generalizing start earlier with
  | nil => simp [trace] at split
  | cons action rest ih =>
    cases earlier with
    | nil =>
      obtain ⟨rfl, rfl⟩ := List.cons.inj split
      exact ⟨[], rest, rfl, rfl, rfl, rfl⟩
    | cons first earlier =>
      obtain ⟨same, others⟩ := List.cons.inj split
      obtain ⟨front, back, rfl, rfl, here, behind⟩ := ih others
      exact ⟨action :: front, back, rfl, congrArg (· :: _) same.symm, here, behind⟩

theorem trace_split {start : State × σ} {actions : List Action} {earlier later : List Transition}
    {t : Transition} (split : trace contexts settings start actions = earlier ++ t :: later) :
    ∃ w, t = transition contexts settings t.before w t.action := by
  obtain ⟨first, rest, -, -, here, -⟩ := trace_split_run contexts settings split
  have before : t.before = (run contexts settings start first).1 := congrArg Transition.before here
  rw [before]
  exact ⟨_, here⟩

theorem run_append (start : State × σ) (first second : List Action) :
    run contexts settings start (first ++ second) =
      run contexts settings (run contexts settings start first) second :=
  List.foldl_append

theorem trace_append (start : State × σ) (first second : List Action) :
    trace contexts settings start (first ++ second) =
      trace contexts settings start first ++
        trace contexts settings (run contexts settings start first) second := by
  induction first generalizing start with
  | nil => rfl
  | cons action rest ih => exact congrArg _ (ih _)

theorem trace_length (start : State × σ) (actions : List Action) :
    (trace contexts settings start actions).length = actions.length := by
  induction actions generalizing start with
  | nil => rfl
  | cons action rest ih => exact congrArg Nat.succ (ih _)

end

/-! ## Induction over what is done with contexts -/

section
variable {σ : Type} {contexts : Contexts σ} (settings : Settings) {P : σ → List Effect → Prop}
  (post : ∀ w record generation request result posted, P w record →
    contexts.post w generation request = (result, posted) →
    P posted (record ++ [.posted generation request result]))
  (destroy : ∀ w record generation, P w record →
    P (contexts.destroy w generation) (record ++ [.destroyed generation]))

def Keeps (P : σ → List Effect → Prop) (result : State × σ × List Effect) : Prop :=
  P result.2.1 result.2.2

include destroy in
theorem reset_keeps {s : State} {w : σ} {record : List Effect} (start : P w record) :
    Keeps P (reset contexts.recorded s (w, record)) := by
  unfold reset
  cases s.live with
  | none => exact start
  | some live => exact destroy _ _ _ start

include post destroy in
theorem dispatch_keeps {s : State} {w : σ} {record : List Effect} (start : P w record)
    (caller : Nat) (awaited : Awaited) (kind : Request.Kind) (budget : Duration) :
    Keeps P (dispatch contexts.recorded settings s (w, record) caller awaited kind budget) := by
  unfold dispatch
  cases s.live with
  | none => exact start
  | some live =>
    rcases sent : contexts.post w live.generation ⟨settings.ids s.issued, kind⟩ with
      ⟨cause | _, posted⟩
    · simp only [recorded_post sent]
      have kept := reset_keeps destroy (s := { s with live := some live, issued := s.issued + 1 })
        (post _ _ _ _ _ _ start sent)
      exact kept
    · simp only [recorded_post sent]
      exact post _ _ _ _ _ _ start sent

include post destroy in
theorem ensureContext_keeps {s : State} {w : σ} (start : P w [])
    (create : ∀ result made, contexts.create w (s.generation + 1) = (result, made) →
      P made [.created (s.generation + 1) result]) :
    Keeps P (ensureContext contexts.recorded s (w, [])).2 := by
  unfold ensureContext
  cases s.live with
  | some live => exact start
  | none =>
    rcases created : contexts.create w (s.generation + 1) with ⟨cause | _, made⟩
    · simp only [recorded_create created]
      exact create _ _ created
    · rcases sent : contexts.post made (s.generation + 1) ⟨.warmup, .ping⟩ with ⟨cause | _, posted⟩
      · simp only [recorded_create created, recorded_post sent]
        exact destroy _ _ _ (post _ _ _ _ _ _ (create _ _ created) sent)
      · simp only [recorded_create created, recorded_post sent]
        exact post _ _ _ _ _ _ (create _ _ created) sent

include post destroy in
theorem step_keeps {s : State} {w : σ} (start : P w [])
    (create : ∀ result made, contexts.create w (s.generation + 1) = (result, made) →
      P made [.created (s.generation + 1) result]) (action : Action) :
    Keeps P (step contexts.recorded settings (s, w, []) action) := by
  cases action with
  | begin ask =>
    simp only [step]
    split
    · exact start
    · simp only [begin, seekReadiness]
      have ensured := ensureContext_keeps post destroy
        (s := { s with calls := s.calls ++ [⟨ask, .admitted⟩] }) start create
      generalize ensureContext contexts.recorded _ (w, []) = result at ensured
      obtain ⟨cause | _, s', w', record'⟩ := result
      · exact ensured
      · by_cases ready : s'.isReady = true
        · simp only [ready, if_true]
          exact ensured
        · simp only [ready]
          replace ensured : P w' record' := ensured
          exact dispatch_keeps settings post destroy ensured _ _ _ _
  | proceed caller =>
    simp only [step, proceed]
    split
    · simp only [dispatchRun]
      split
      · exact start
      · split
        · exact dispatch_keeps settings post destroy start _ _ _ _
        · exact start
    · split
      · unfold expire
        split
        · exact start
        · exact start
        · exact reset_keeps destroy start
      · split
        · exact start
        · split <;> exact start
    · exact start
  | event generation event =>
    simp only [step, onEvent]
    split
    · cases event with
      | response response =>
        simp only [onResponse]
        split
        · exact start
        · split
          · exact start
          · exact reset_keeps destroy start
          · exact start
          · exact start
          · exact start
      | crashed reason => exact reset_keeps destroy start
    · exact start
  | reset =>
    simp only [step]
    split
    · exact start
    · exact reset_keeps destroy start
  | drop =>
    simp only [step, drop]
    split
    · exact start
    · exact reset_keeps destroy start
  | _ => exact start

end

end Sandbox.Client

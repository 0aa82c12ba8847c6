import Sandbox.Proofs.Client.Snippet

namespace Sandbox.Client

def Effect.post? : Effect → Option Request
  | .posted _ request _ => some request
  | _ => none

def posts (effects : List Effect) : List Request := effects.filterMap Effect.post?

@[simp] theorem posts_append (effects more : List Effect) :
    posts (effects ++ more) = posts effects ++ posts more :=
  List.filterMap_append

theorem teardown_quiet (s : State) : posts s.teardown = [] := by
  rw [State.teardown]
  cases s.live <;> rfl

/-! ## Creations that fail -/

section
variable {σ : Type} (contexts : Contexts σ) (settings : Settings)

/-- The making of a context for a new call comes to nothing: why it does, what is done on the way,
and what that leaves of the contexts. -/
inductive Botched (s : State) (w : σ) : Failure → List Effect → σ → Prop
  | uncreated {cause : Failure} {made : σ}
    (create : contexts.create w (s.generation + 1) = (.error cause, made)) :
    Botched s w cause [.created (s.generation + 1) (.error cause)] made
  | unwarmed {cause : Failure} {made posted : σ}
    (create : contexts.create w (s.generation + 1) = (.ok (), made))
    (warmup : contexts.post made (s.generation + 1) ⟨.warmup, .ping⟩ = (.error cause, posted)) :
    Botched s w cause
      [.created (s.generation + 1) (.ok ()),
        .posted (s.generation + 1) ⟨.warmup, .ping⟩ (.error cause), .destroyed (s.generation + 1)]
      (contexts.destroy posted (s.generation + 1))
  | unpinged {cause : Failure} {made warmed posted : σ}
    (create : contexts.create w (s.generation + 1) = (.ok (), made))
    (warmup : contexts.post made (s.generation + 1) ⟨.warmup, .ping⟩ = (.ok (), warmed))
    (ping : contexts.post warmed (s.generation + 1) ⟨settings.ids s.issued, .ping⟩ =
      (.error cause, posted)) :
    Botched s w cause
      [.created (s.generation + 1) (.ok ()), .posted (s.generation + 1) ⟨.warmup, .ping⟩ (.ok ()),
        .posted (s.generation + 1) ⟨settings.ids s.issued, .ping⟩ (.error cause),
        .destroyed (s.generation + 1)]
      (contexts.destroy posted (s.generation + 1))

def State.denied (s : State) (ask : Ask) (cause : Failure) (drawn : Nat) : State :=
  { s with
    generation := s.generation + 1
    issued := s.issued + drawn
    calls := s.calls ++ [⟨ask, .finished (.error cause)⟩] }

theorem State.finish_opened (s : State) (ask : Ask) (outcome : Except Failure (Option RunOutput)) :
    (s.opened ask).finish s.calls.length outcome =
      { s with calls := s.calls ++ [⟨ask, .finished outcome⟩] } := by
  have calls : ((s.opened ask).finish s.calls.length outcome).calls =
      s.calls ++ [⟨ask, .finished outcome⟩] := by
    apply List.ext_getElem?
    intro i
    rw [State.finish, calls_setPhase, calls_opened, List.getElem?_append]
    by_cases here : i = s.calls.length
    · simp [here]
    · by_cases old : i < s.calls.length
      · simp [here, old]
      · simp [here, old, List.getElem?_singleton]
        omega
  exact congrArg (fun calls => { s with calls }) calls

theorem begin_botched {s : State} {w left : σ} {cause : Failure} {effects : List Effect}
    (botched : Botched contexts settings s w cause effects left) (absent : s.live = none)
    (idle : s.pending = []) (kept : s.dropped = false) (ask : Ask) :
    step contexts.recorded settings (s, w, []) (.begin ask) =
      (s.denied ask cause (posts effects).tail.length, left, effects) := by
  obtain ⟨now, live, generation, issued, pending, calls, dropped⟩ := s
  dsimp only at absent idle kept
  subst absent idle kept
  have finished := fun issued => State.finish_opened
    { now, generation := generation + 1, issued, calls } ask (.error cause)
  simp only [step, begin, seekReadiness, ensureContext]
  cases botched with
  | uncreated create =>
    simp only [recorded_create create]
    exact congrArg (·, _, _) (finished issued)
  | unwarmed create warmup =>
    simp only [recorded_create create, recorded_post warmup]
    exact congrArg (·, _, _) (finished issued)
  | unpinged create warmup ping =>
    simp only [recorded_create create, recorded_post warmup, State.isReady, dispatch,
      recorded_post ping]
    exact congrArg (·, _, _) (finished (issued + 1))

end

/-- In this transition a new call fails, and nothing is left but its failure and the numbers that it
used up. -/
structure Transition.Undone (t : Transition) (ask : Ask) (cause : Failure) : Prop where
  returned : t.after.calls[t.before.calls.length]? = some ⟨ask, .finished (.error cause)⟩
  live : t.after.live = none
  pending : t.after.pending = []
  destroyed : opened t.effects = ended t.effects
  rest : t.after = t.before.denied ask cause (posts t.effects).tail.length

theorem Botched.destroyed {σ : Type} {contexts : Contexts σ} {settings : Settings} {s : State}
    {w left : σ} {cause : Failure} {effects : List Effect}
    (botched : Botched contexts settings s w cause effects left) :
    opened effects = ended effects := by
  cases botched <;> rfl

/-! ## What a call asks of contexts -/

def efforts (past : List Transition) (caller : Nat) : List Effect :=
  (past.filter fun t => t.action.actor? t.before = some caller).flatMap Transition.effects

def Ask.requests (ask : Ask) (ping snippet : CorrelationId) : List Request :=
  ⟨.warmup, .ping⟩ :: ⟨ping, .ping⟩ :: match ask with
    | .ready _ => []
    | .run code _ => [⟨snippet, .run code⟩]

def Phase.isUnsent : Phase → Bool
  | .admitted => true
  | .waiting wait => wait.awaited = .handshake
  | .finished _ | .cancelled => false

inductive Exertion (settings : Settings) (s : State) (caller : Nat) (effects : List Effect)
    (s' : State) : Prop
  | quiet (creations : effects.filterMap Effect.creation? = []) (posts : posts effects = [])
  | opening (new : caller = s.calls.length) (begun : caller < s'.calls.length)
    (creations : (effects.filterMap Effect.creation?).length ≤ 1)
    (posts : (posts effects).Sublist [⟨.warmup, .ping⟩, ⟨settings.ids s.issued, .ping⟩])
  | sending {code : String} {budgets : Option Budgets} {phase : Phase}
    (found : s.calls[caller]? = some ⟨.run code budgets, .admitted⟩)
    (after : s'.calls[caller]? = some ⟨.run code budgets, phase⟩) (sent : phase.isUnsent = false)
    (creations : effects.filterMap Effect.creation? = [])
    (posts : posts effects = [⟨settings.ids s.issued, .run code⟩])

section
variable {settings : Settings} {s s' : State} {action : Action} {effects : List Effect}
  {caller : Nat} {ask : Ask}

theorem Dispatch.posts {awaited : Awaited} {kind : Request.Kind} {budget : Duration}
    (dispatch : Dispatch settings s caller awaited kind budget effects s') :
    Client.posts effects = [⟨settings.ids s.issued, kind⟩] := by
  cases dispatch <;> rfl

theorem Dispatch.length {awaited : Awaited} {kind : Request.Kind} {budget : Duration}
    (dispatch : Dispatch settings s caller awaited kind budget effects s') :
    s'.calls.length = s.calls.length := by
  cases dispatch with
  | registered held => exact List.length_modify _ _ _
  | unposted held cause => exact (List.length_modify _ _ _).trans (cleared_length _)

theorem Dispatch.sent {kind : Request.Kind} {budget : Duration}
    (dispatch : Dispatch settings s caller .run kind budget effects s')
    (found : s.calls[caller]? = some ⟨ask, .admitted⟩) :
    ∃ phase, s'.calls[caller]? = some ⟨ask, phase⟩ ∧ phase.isUnsent = false := by
  cases dispatch with
  | registered held =>
    have counted : { s with issued := s.issued + 1, pending :=
        ⟨settings.ids s.issued, .run, caller⟩ :: s.pending }.calls[caller]? =
        some ⟨ask, .admitted⟩ := found
    exact ⟨_, setPhase_found counted _, rfl⟩
  | unposted held cause =>
    obtain ⟨phase, still⟩ := cleared_found (s := { s with issued := s.issued + 1 }) found
    exact ⟨_, setPhase_found still _, rfl⟩

theorem Change.exertion (change : Change settings s action effects s')
    (acts : action.actor? s = some caller) : Exertion settings s caller effects s' := by
  have grown : ∀ ask, s.calls.length < (s.opened ask).calls.length := by
    intro ask
    simp [State.opened]
  cases change with
  | overran found expired held run => exact .quiet (teardown_creations s) (teardown_quiet s)
  | sent found ready dispatch =>
    obtain rfl := Option.some.inj acts
    obtain ⟨phase, after, sent⟩ := dispatch.sent found
    exact .sending found after sent dispatch.live.2.1 dispatch.posts
  | uncreated absent cause =>
    obtain rfl := Option.some.inj acts
    refine .opening rfl ?_ (Nat.le_refl _) (List.nil_sublist _)
    exact Nat.lt_of_lt_of_eq (grown _) (List.length_modify _ _ _).symm
  | unwarmed absent cause =>
    obtain rfl := Option.some.inj acts
    refine .opening rfl ?_ (Nat.le_refl _) (.cons_cons _ (List.nil_sublist _))
    exact Nat.lt_of_lt_of_eq (grown _) (List.length_modify _ _ _).symm
  | pinged provision unready dispatch =>
    obtain rfl := Option.some.inj acts
    refine .opening rfl ?_ ?_ ?_
    · rw [dispatch.length, provision.table.2.2]
      exact grown _
    · rw [List.filterMap_append, dispatch.live.2.1, List.append_nil]
      cases provision <;> simp [Effect.creation?]
    · rw [posts_append, dispatch.posts]
      cases provision with
      | kept held => exact .cons _ (.refl _)
      | fresh absent => exact .refl _
  | reset | dropped | crashed | answered | failed => cases acts
  | _ => exact .quiet rfl rfl

theorem Change.aside (change : Change settings s action effects s')
    (aside : action.actor? s = none) :
    effects.filterMap Effect.creation? = [] ∧ Client.posts effects = [] := by
  cases change with
  | reset | dropped => exact ⟨teardown_creations s, teardown_quiet s⟩
  | crashed current => exact ⟨teardown_creations s, teardown_quiet s⟩
  | failed current found handshake => exact ⟨teardown_creations s, teardown_quiet s⟩
  | idle | advanced | answered => exact ⟨rfl, rfl⟩
  | _ => cases aside

theorem Phase.isUnsent_given (reply : Except Failure Reply) (phase : Phase) :
    (phase.given reply).isUnsent = phase.isUnsent := by
  cases phase <;> rfl

theorem Phase.isUnsent_resolution {awaited : Awaited} {reply : Except Failure Reply}
    (unsent : (resolution ask awaited reply).isUnsent = true) : awaited = .handshake := by
  rcases resolution_cases ask awaited reply with admitted | ⟨result, finished⟩
  · cases awaited with
    | handshake => rfl
    | run => exact absurd admitted resolution_run_ne_admitted
  · rw [finished] at unsent
    cases unsent

theorem Change.unsent (change : Change settings s action effects s') {phase : Phase}
    (after : s'.calls[caller]? = some ⟨ask, phase⟩) (unsent : phase.isUnsent = true) :
    caller = s.calls.length ∨
      ∃ before, s.calls[caller]? = some ⟨ask, before⟩ ∧ before.isUnsent = true := by
  have admitted : s.Admits caller ask → caller = s.calls.length ∨
      ∃ before, s.calls[caller]? = some ⟨ask, before⟩ ∧ before.isUnsent = true :=
    Or.imp_right fun found => ⟨_, found, rfl⟩
  by_cases acts : action.actor? s = some caller
  · rcases change.turn acts with rfl | ⟨ask', phase', after', turn⟩
    · exact .inr ⟨phase, after, unsent⟩
    · cases after.symm.trans after'
      cases turn with
      | refused admits | failed admits | entered admits | dispatched admits => exact admitted admits
      | noticed found due => exact .inr ⟨_, found, unsent⟩
      | replied found replied =>
        exact .inr ⟨_, found, decide_eq_true (Phase.isUnsent_resolution unsent)⟩
      | timed found expired held =>
        exact .inr ⟨_, found, decide_eq_true (Phase.isUnsent_resolution unsent)⟩
      | cancelled found active => cases unsent
  · rcases change.untouched acts with same | ⟨record, held, left, own, reply, told⟩
    · exact .inr ⟨phase, same.symm.trans after, unsent⟩
    · rw [told] at after
      obtain ⟨⟨ask', before⟩, found, eq⟩ := Option.map_eq_some_iff.mp after
      cases eq
      exact .inr ⟨before, found, (Phase.isUnsent_given reply before).symm.trans unsent⟩

end

/-! ## What a call asks of contexts in its whole life -/

theorem efforts_extend (past : List Transition) (t : Transition) (caller : Nat) :
    efforts (past ++ [t]) caller = efforts past caller ++
      if t.action.actor? t.before = some caller then t.effects else [] := by
  rw [efforts, List.filter_append, List.flatMap_append]
  by_cases acts : t.action.actor? t.before = some caller <;> simp [efforts, acts]

structure Frugal (settings : Settings) (ask : Ask) (effects : List Effect) : Prop where
  creations : (effects.filterMap Effect.creation?).length ≤ 1
  posts : ∃ ping snippet,
    (posts effects).Sublist (ask.requests (settings.ids ping) (settings.ids snippet))

structure Spent (settings : Settings) (ask : Ask) (phase : Phase) (effects : List Effect) :
    Prop where
  frugal : Frugal settings ask effects
  unsent : phase.isUnsent = true → ∃ ping,
    (posts effects).Sublist [⟨.warmup, .ping⟩, ⟨settings.ids ping, .ping⟩]

structure Thrifty (settings : Settings) (past : List Transition) (s : State) : Prop where
  unknown : ∀ caller, s.calls.length ≤ caller →
    (efforts past caller).filterMap Effect.creation? = [] ∧ posts (efforts past caller) = []
  known : ∀ (caller : Nat) (ask : Ask) (phase : Phase), s.calls[caller]? = some ⟨ask, phase⟩ →
    Spent settings ask phase (efforts past caller)

section
variable {settings : Settings} {past : List Transition} {s s' : State} {action : Action}
  {effects more : List Effect} {caller : Nat} {ask : Ask} {phase : Phase}

theorem Spent.opening {n : Nat} (creations : (effects.filterMap Effect.creation?).length ≤ 1)
    (posts : (posts effects).Sublist [⟨.warmup, .ping⟩, ⟨settings.ids n, .ping⟩]) :
    Spent settings ask phase effects where
  frugal := ⟨creations, n, n, posts.trans (.cons_cons _ (.cons_cons _ (List.nil_sublist _)))⟩
  unsent := fun _ => ⟨n, posts⟩

theorem Spent.quiet (spent : Spent settings ask phase effects)
    (creations : more.filterMap Effect.creation? = []) (posts : posts more = []) :
    Spent settings ask phase (effects ++ more) := by
  obtain ⟨⟨made, ping, snippet, posted⟩, unsent⟩ := spent
  refine ⟨⟨?_, ping, snippet, ?_⟩, ?_⟩
  · rwa [List.filterMap_append, creations, List.append_nil]
  · rwa [posts_append, posts, List.append_nil]
  · rwa [posts_append, posts, List.append_nil]

theorem Spent.sending {code : String} {budgets : Option Budgets} {n : Nat}
    (spent : Spent settings (.run code budgets) .admitted effects)
    (sent : phase.isUnsent = false) (creations : more.filterMap Effect.creation? = [])
    (posts : posts more = [⟨settings.ids n, .run code⟩]) :
    Spent settings (.run code budgets) phase (effects ++ more) := by
  obtain ⟨ping, posted⟩ := spent.unsent rfl
  refine ⟨⟨?_, ping, n, ?_⟩, fun unsent => nomatch sent.symm.trans unsent⟩
  · rw [List.filterMap_append, creations, List.append_nil]
    exact spent.frugal.creations
  · rw [posts_append, posts]
    exact posted.append (.refl _)

theorem Change.known (change : Change settings s action effects s')
    (found : s.calls[caller]? = some ⟨ask, phase⟩) : caller < s'.calls.length := by
  obtain ⟨phase', after⟩ := change.asks found
  exact (List.getElem?_eq_some_iff.mp after).choose

theorem Thrifty.before (thrifty : Thrifty settings past s)
    (change : Change settings s action effects s')
    (after : s'.calls[caller]? = some ⟨ask, phase⟩) :
    Spent settings ask phase (efforts past caller) := by
  cases found : s.calls[caller]? with
  | none =>
    obtain ⟨creations, posts⟩ := thrifty.unknown caller (List.getElem?_eq_none_iff.mp found)
    refine .opening (n := 0) ?_ ?_
    · simp [creations]
    · rw [posts]
      exact List.nil_sublist _
  | some call =>
    obtain ⟨ask', before⟩ := call
    obtain ⟨phase', after'⟩ := change.asks found
    cases after.symm.trans after'
    refine ⟨(thrifty.known _ _ _ found).frugal, fun unsent => ?_⟩
    rcases change.unsent after unsent with new | ⟨unsent', found', still⟩
    · simp [new] at found
    · exact (thrifty.known _ _ _ found').unsent still

theorem Thrifty.after (thrifty : Thrifty settings past s)
    (change : Change settings s action effects s') (acts : action.actor? s = some caller)
    (after : s'.calls[caller]? = some ⟨ask, phase⟩) :
    Spent settings ask phase (efforts past caller ++ effects) := by
  have before := thrifty.before change after
  cases change.exertion acts with
  | quiet creations posts => exact before.quiet creations posts
  | opening new begun creations posts =>
    obtain ⟨uncreated, unposted⟩ := thrifty.unknown caller (Nat.le_of_eq new.symm)
    refine .opening (n := s.issued) ?_ ?_
    · rwa [List.filterMap_append, uncreated]
    · rwa [posts_append, unposted]
  | sending found after' sent creations posts =>
    cases after.symm.trans after'
    exact (thrifty.known _ _ _ found).sending sent creations posts

theorem Thrifty.extend (thrifty : Thrifty settings past s)
    (change : Change settings s action effects s') :
    Thrifty settings (past ++ [⟨action, s, effects, s'⟩]) s' := by
  constructor
  case unknown =>
    intro caller unknown
    have old : s.calls.length ≤ caller := by
      by_contra known
      have := change.known (List.getElem?_eq_getElem (Nat.lt_of_not_le known))
      omega
    obtain ⟨uncreated, unposted⟩ := thrifty.unknown caller old
    rw [efforts_extend]
    split
    · rename_i acts
      rw [List.filterMap_append, posts_append, uncreated, unposted]
      cases change.exertion acts with
      | quiet creations posts => exact ⟨creations, posts⟩
      | opening new begun creations posts => omega
      | sending found after sent creations posts =>
        have := change.known found
        omega
    · rw [List.append_nil]
      exact ⟨uncreated, unposted⟩
  case known =>
    intro caller ask phase after
    rw [efforts_extend]
    split
    · rename_i acts
      exact thrifty.after change acts after
    · rw [List.append_nil]
      exact thrifty.before change after

theorem Course.thrifty (course : Course settings past s) : Thrifty settings past s := by
  induction course with
  | start => exact ⟨fun _ _ => ⟨rfl, rfl⟩, nofun⟩
  | extend earlier change ih => exact ih.extend change

end

/-! ## Whole runs -/

structure Sparing {σ : Type} (contexts : Contexts σ) (settings : Settings) (past : List Transition)
    (start : State × σ) : Prop where
  undone : ∀ (ask : Ask) (cause : Failure) (effects : List Effect) (left : σ),
    start.1.live = none → start.1.dropped = false →
    Botched contexts settings start.1 start.2 cause effects left →
    (transition contexts settings start.1 start.2 (.begin ask)).Undone ask cause ∧
      (transition contexts settings start.1 start.2 (.begin ask)).effects = effects ∧
      (step contexts settings start (.begin ask)).2 = left
  frugal : ∀ (caller : Nat) (call : Call), start.1.calls[caller]? = some call →
    Frugal settings call.ask (efforts past caller)
  aside : ∀ t ∈ past, t.action.actor? t.before = none → t.creations = [] ∧ posts t.effects = []

/-- In every run: a call that needs a context and cannot have one gets the very error of the step
that failed, with nothing left of the steps before it; and no call has more than one context made or
posts anything twice, whatever fails. -/
theorem failed_creation_leaves_nothing {σ : Type} (contexts : Contexts σ) (settings : Settings)
    (w : σ) (actions : List Action) :
    Sparing contexts settings (trace contexts settings ({}, w) actions)
      (run contexts settings ({}, w) actions) := by
  have course := course_of_run contexts settings w actions
  constructor
  case undone =>
    intro ask cause effects left absent kept botched
    have idle := course.numbered.idle absent
    have recorded := begin_botched contexts settings botched absent idle kept ask
    have performed : step contexts settings (run contexts settings ({}, w) actions) (.begin ask) =
        (_, left) :=
      (step_forget contexts settings _ _ [] _).symm.trans (congrArg forget recorded)
    rw [transition, recorded, performed]
    refine ⟨?_, rfl, rfl⟩
    constructor
    case returned => exact List.getElem?_concat_length
    case live => exact absent
    case pending => exact idle
    case destroyed => exact botched.destroyed
    case rest => rfl
  case frugal =>
    intro caller call found
    exact (course.thrifty.known _ _ _ found).frugal
  case aside =>
    intro t member aside
    obtain ⟨earlier, later, split⟩ := List.append_of_mem member
    rw [split] at course
    exact course.split.2.aside aside

def setback : List Action := [.begin (.ready ⟨1⟩), .event 1 (.crashed "gone"), .proceed 0]

theorem failed_creation_leaves_nothing_setback :
    (run frail counted ({}, 3) setback).1.live = none ∧
    (run frail counted ({}, 3) setback).1.dropped = false ∧
    (transition frail counted (run frail counted ({}, 3) setback).1 1
      (.begin (.run "x" none))).Undone (.run "x" none) .notReady ∧
    (transition frail counted (run frail counted ({}, 3) setback).1 1
      (.begin (.run "x" none))).effects = [.created 2 (.ok ()),
        .posted 2 ⟨.warmup, .ping⟩ (.ok ()), .posted 2 ⟨counted.ids 1, .ping⟩ (.error .notReady),
        .destroyed 2] := by
  have sparing := failed_creation_leaves_nothing frail counted 3 setback
  have botched : Botched frail counted (run frail counted ({}, 3) setback).1 1 .notReady _ 0 :=
    .unpinged rfl rfl rfl
  obtain ⟨undone, done, -⟩ := sparing.undone (.run "x" none) _ _ _ rfl rfl botched
  exact ⟨rfl, rfl, undone, done⟩

end Sandbox.Client

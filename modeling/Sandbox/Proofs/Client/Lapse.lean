import Sandbox.Proofs.Client.Gate
import Sandbox.Proofs.Client.Stray
import Sandbox.Proofs.Client.Teardown

namespace Sandbox.Client

/-! ## Calls that are not past their handshake -/

def State.Shaking (s : State) (caller : Nat) : Prop :=
  ∀ call, s.calls[caller]? = some call →
    ∃ wait, call.phase = .waiting wait ∧ wait.awaited = .handshake

section
variable {settings : Settings} {s s' : State} {action : Action} {effects : List Effect}
  {caller : Nat}

theorem Change.shaking (change : Change settings s action effects s')
    (after : s'.Shaking caller) : s.Shaking caller := by
  intro call found
  obtain ⟨ask, phase⟩ := call
  obtain ⟨phase', found'⟩ := change.asks found
  obtain ⟨wait, rfl, handshake⟩ := after _ found'
  cases change.started found' with
  | now starts =>
    have known : caller < s.calls.length := (List.getElem?_eq_some_iff.mp found).choose
    exact absurd (starts.first handshake) (Nat.ne_of_lt known)
  | before before same budget deadline =>
    cases found.symm.trans before
    exact ⟨_, rfl, (congrArg Record.awaited same).symm.trans handshake⟩

theorem Change.posts_snippet (change : Change settings s action effects s') {generation : Nat}
    {id : CorrelationId} {code : String} {result : Except Failure Unit}
    (posted : .posted generation ⟨id, .run code⟩ result ∈ effects) :
    ∃ caller ask, action = .proceed caller ∧ s.calls[caller]? = some ⟨ask, .admitted⟩ := by
  cases change with
  | reset | crashed current => exact (not_posted_of_teardown posted).elim
  | dropped => exact (not_posted_of_teardown posted).elim
  | failed current found handshake => exact (not_posted_of_teardown posted).elim
  | overran found expired held run => exact (not_posted_of_teardown posted).elim
  | sent found ready dispatch => exact ⟨_, _, rfl, found⟩
  | pinged provision unready dispatch =>
    rcases List.mem_append.mp posted with before | now
    · cases provision <;> simp at before
    · cases dispatch <;> simp at now
  | _ => simp at posted

end

section
variable {settings : Settings} {past : List Transition} {s : State} {caller : Nat} {ask : Ask}
  {wait : Wait}

theorem Course.shaking {earlier later : List Transition} {t : Transition}
    (course : Course settings (earlier ++ t :: later) s) (shaking : s.Shaking caller) :
    t.before.Shaking caller := by
  generalize eq : earlier ++ t :: later = past at course
  induction course generalizing later with
  | start => simp at eq
  | extend before change ih =>
    have here := change.shaking shaking
    rcases List.eq_nil_or_concat later with rfl | ⟨rest, last, rfl⟩
    · obtain ⟨-, same⟩ := List.append_inj' eq rfl
      obtain rfl := List.singleton_inj.mp same
      exact here
    · rw [List.concat_eq_append, ← List.cons_append, ← List.append_assoc] at eq
      exact ih here (List.append_inj' eq rfl).1

theorem Orderly.filter_eq_erase (orderly : Orderly settings past s) {record : Record}
    (held : record ∈ s.pending) :
    s.pending.filter (·.id ≠ record.id) = s.pending.erase record := by
  rw [orderly.pending_nodup.erase_eq_filter]
  apply List.filter_congr
  intro other held'
  by_cases same : other = record
  · simp [same]
  · have apart : other.id ≠ record.id := fun id => same (orderly.alone held other held' id)
    simp [same, apart]

end

/-! ## The section of a call whose handshake has lapsed -/

section
variable {σ : Type} (contexts : Contexts σ) (settings : Settings)

structure Renewed (start : State × σ) (ask : Ask) (generation : Nat) : Prop where
  posts : ∀ target,
    postsTo (transition contexts settings start.1 start.2 (.begin ask)).effects target =
      if generation = target then [⟨settings.ids start.1.issued, .ping⟩] else []
  fresh : ∀ record ∈ start.1.pending, record.id ≠ settings.ids start.1.issued
  registers : (contexts.post start.2 generation ⟨settings.ids start.1.issued, .ping⟩).1 = .ok () →
    (step contexts settings start (.begin ask)).1.pending =
      ⟨settings.ids start.1.issued, .handshake, start.1.calls.length⟩ :: start.1.pending ∧
    (step contexts settings start (.begin ask)).1.live = start.1.live
  readies : (contexts.post start.2 generation ⟨settings.ids start.1.issued, .ping⟩).1 = .ok () →
    ∀ more, ⟨settings.ids start.1.issued, .handshake, start.1.calls.length⟩ ∈
        (run contexts settings start (.begin ask :: more)).1.pending →
      (step contexts settings (run contexts settings start (.begin ask :: more))
        (.event generation (.response ⟨settings.ids start.1.issued, .ready⟩))).1.live =
          some ⟨generation, true⟩

/-- What becomes of a client, its contexts and the other calls in the section of a call whose
handshake has lapsed, and what becomes of the handshake after that. -/
structure Lapses (past : List Transition) (start : State × σ) (caller : Nat) (ask : Ask)
    (wait : Wait) : Prop where
  removed : wait.record caller ∈ start.1.pending ∧
    (step contexts settings start (.proceed caller)).1.pending =
      start.1.pending.erase (wait.record caller)
  returned : (step contexts settings start (.proceed caller)).1.calls[caller]? =
    some ⟨ask, .finished (.error (.initTimeout (ask.readiness settings)))⟩
  others : ∀ other ≠ caller, (step contexts settings start (.proceed caller)).1.calls[other]? =
    start.1.calls[other]?
  kept : (step contexts settings start (.proceed caller)).1 = { start.1 with
    pending := (step contexts settings start (.proceed caller)).1.pending
    calls := (step contexts settings start (.proceed caller)).1.calls }
  silent : (step contexts settings start (.proceed caller)).2 = start.2 ∧
    (transition contexts settings start.1 start.2 (.proceed caller)).effects = []
  unposted : ∀ later, ∀ t ∈ past ++ trace contexts settings start (.proceed caller :: later),
    t.action.actor? t.before = some caller → ∀ generation id code result,
      .posted generation ⟨id, .run code⟩ result ∉ t.effects
  unheard : ∀ later generation kind,
    step contexts settings (run contexts settings start (.proceed caller :: later))
      (.event generation (.response ⟨wait.id, kind⟩)) =
        run contexts settings start (.proceed caller :: later)
  renewed : ∀ later ask' generation,
    (run contexts settings start (.proceed caller :: later)).1.live = some ⟨generation, false⟩ →
    settings.ids (run contexts settings start (.proceed caller :: later)).1.issued ≠ wait.id ∧
      Renewed contexts settings (run contexts settings start (.proceed caller :: later)) ask'
        generation

end

def State.handshake (s : State) (settings : Settings) (ask : Ask) : Wait where
  awaited := .handshake
  id := settings.ids s.issued
  budget := ask.readiness settings
  deadline := s.now + ask.readiness settings

def State.pinged (s : State) (settings : Settings) (ask : Ask) : State :=
  { s.opened ask with
    issued := s.issued + 1
    pending := (s.handshake settings ask).record s.calls.length :: s.pending }.setPhase
      s.calls.length (.waiting (s.handshake settings ask))

theorem State.calls_pinged (s : State) (settings : Settings) (ask : Ask) :
    (s.pinged settings ask).calls[s.calls.length]? =
      some ⟨ask, .waiting (s.handshake settings ask)⟩ := by
  have opened := s.calls_opened ask s.calls.length
  rw [if_pos rfl] at opened
  rw [pinged, calls_setPhase, if_pos rfl]
  exact congrArg (Option.map _) opened

section
variable {σ : Type} {contexts : Contexts σ} {settings : Settings} {s : State} {w : σ}
  {caller : Nat} {ask : Ask} {wait : Wait} {record : Record} {generation : Nat}
  {past : List Transition}

theorem proceed_lapsed (contexts : Contexts σ) (settings : Settings)
    (found : s.calls[caller]? = some ⟨ask, .waiting wait⟩) (handshake : wait.awaited = .handshake)
    (expired : wait.expired = true) (held : s.record? wait.id = some record) (w : σ) :
    step contexts settings (s, w) (.proceed caller) =
      ((s.removeRecord wait.id).finish caller (.error (.initTimeout wait.budget)), w) := by
  simp only [step, proceed, found, expired, if_true, expire, held, handshake]

theorem begin_unready (contexts : Contexts σ) (unready : s.live = some ⟨generation, false⟩)
    (kept : s.dropped = false) (w : σ) (ask : Ask) :
    step contexts settings (s, w) (.begin ask) =
      dispatch contexts settings (s.opened ask) w s.calls.length .handshake .ping
        (ask.readiness settings) := by
  simp only [step, kept, begin, seekReadiness, ensureContext, unready, State.isReady, State.opened]
  rfl

theorem begin_posts (contexts : Contexts σ) (unready : s.live = some ⟨generation, false⟩)
    (kept : s.dropped = false) (w : σ) (ask : Ask) (target : Nat) :
    postsTo (transition contexts settings s w (.begin ask)).effects target =
      if generation = target then [⟨settings.ids s.issued, .ping⟩] else [] := by
  have held : (s.opened ask).live = some ⟨generation, false⟩ := unready
  obtain ⟨effects, s', w', eq, dispatched⟩ := dispatch_recorded contexts settings (s.opened ask) w
    [] s.calls.length .handshake .ping (ask.readiness settings) held
  obtain ⟨live, held', -, -, posts⟩ := dispatched.posting
  obtain rfl := Option.some.inj (held.symm.trans held')
  rw [transition, begin_unready contexts.recorded unready kept, eq]
  exact posts target

theorem begin_registers (contexts : Contexts σ) (unready : s.live = some ⟨generation, false⟩)
    (kept : s.dropped = false)
    (taken : (contexts.post w generation ⟨settings.ids s.issued, .ping⟩).1 = .ok ()) (ask : Ask) :
    (step contexts settings (s, w) (.begin ask)).1 = s.pinged settings ask := by
  rw [begin_unready contexts unready kept]
  obtain ⟨now, live, created, issued, pending, calls, dropped⟩ := s
  dsimp only at unready taken
  subst unready
  rcases post : contexts.post w generation ⟨settings.ids issued, .ping⟩ with ⟨result, posted⟩
  rw [post] at taken
  obtain rfl : result = .ok () := taken
  simp only [dispatch, State.opened, post]
  rfl

theorem begin_dispatches (contexts : Contexts σ) (unready : s.live = some ⟨generation, false⟩)
    (kept : s.dropped = false)
    (taken : (contexts.post w generation ⟨settings.ids s.issued, .ping⟩).1 = .ok ()) (ask : Ask) :
    (transition contexts settings s w (.begin ask)).Dispatches
      ⟨settings.ids s.issued, .handshake, s.calls.length⟩ generation := by
  have change := transition_change contexts settings s w (.begin ask)
  have after : (transition contexts settings s w (.begin ask)).after = s.pinged settings ask :=
    (transition_after ..).trans (begin_registers contexts unready kept taken ask)
  have found := s.calls_pinged settings ask
  rw [← after] at found
  cases change.started found with
  | now starts =>
    obtain ⟨other, dispatches⟩ := starts.dispatches
    have current : (s.pinged settings ask).current? = some generation :=
      congrArg (Option.map Live.generation) unready
    rw [← after] at current
    obtain rfl := Option.some.inj (current.symm.trans dispatches.current)
    exact dispatches
  | before found => simp at found

theorem Course.answer_readies (course : Course settings past s)
    (distinct : Function.Injective settings.ids) (contexts : Contexts σ)
    (current : s.current? = some generation) (held : record ∈ s.pending)
    (handshake : record.awaited = .handshake) (w : σ) :
    (step contexts settings (s, w) (.event generation (.response ⟨record.id, .ready⟩))).1.live =
      some ⟨generation, true⟩ := by
  have found : s.record? record.id = some record := by
    have alone := (course.orderly distinct).alone held
    cases found : s.record? record.id with
    | none => simp [State.record?] at found; exact absurd rfl (found record held)
    | some other =>
      obtain ⟨held', same⟩ := mem_of_record? found
      rw [alone other held' same]
  obtain ⟨live, living, rfl⟩ := Option.map_eq_some_iff.mp current
  simp only [step, onEvent, living, Option.map_some, if_true, onResponse, found, handshake,
    State.settle_eq, State.removeRecord]

end

/-! ## Runs with a lapse -/

section
variable {σ : Type} (contexts : Contexts σ) (settings : Settings)

theorem not_dropped_of_live {w : σ} {actions : List Action} {live : Live}
    (held : (run contexts settings ({}, w) actions).1.live = some live) :
    (run contexts settings ({}, w) actions).1.dropped = false := by
  apply eq_false_of_ne_true
  intro dropped
  have retired := run_retired contexts settings ({}, w) nofun actions dropped
  cases held.symm.trans retired.live

theorem step_response_unmatched {s : State} {id : CorrelationId}
    (absent : ∀ record ∈ s.pending, record.id ≠ id) (w : σ) (generation : Nat)
    (kind : Response.Kind) :
    step contexts settings (s, w) (.event generation (.response ⟨id, kind⟩)) = (s, w) := by
  rw [step, onEvent]
  split
  · exact onResponse_unmatched contexts w absent
  · rfl

variable (distinct : Function.Injective settings.ids) (w : σ) (actions : List Action)

include distinct

theorem run_renewed {generation : Nat}
    (unready : (run contexts settings ({}, w) actions).1.live = some ⟨generation, false⟩)
    (ask : Ask) :
    Renewed contexts settings (run contexts settings ({}, w) actions) ask generation := by
  have course := course_of_run contexts settings w actions
  have kept := not_dropped_of_live contexts settings unready
  constructor
  case posts => exact begin_posts contexts unready kept _ ask
  case fresh =>
    intro old held
    have known := (course.orderly distinct).pending_registered held
    exact (course.orderly distinct).fresh distinct known
  case registers =>
    intro taken
    rw [begin_registers contexts unready kept taken]
    exact ⟨rfl, rfl⟩
  case readies =>
    intro taken more held
    have later := course_of_run contexts settings w (actions ++ .begin ask :: more)
    rw [run_append, trace_append] at later
    -- The new handshake went to the context that was found, which is the live one while the record
    -- of the handshake is in the table.
    have dispatches := begin_dispatches contexts unready kept taken ask
    have member : transition contexts settings (run contexts settings ({}, w) actions).1
        (run contexts settings ({}, w) actions).2 (.begin ask) ∈
          trace contexts settings ({}, w) actions ++
            trace contexts settings (run contexts settings ({}, w) actions) (.begin ask :: more) :=
      List.mem_append_right _ (List.mem_cons_self ..)
    have current := later.pending_current distinct ⟨_, member, dispatches⟩ held
    exact later.answer_readies distinct contexts current held rfl _

end

theorem run_unposted {σ : Type} {contexts : Contexts σ} {settings : Settings} {w : σ}
    {actions : List Action} {caller : Nat} {ask : Ask} {wait : Wait}
    (found : (run contexts settings ({}, w) actions).1.calls[caller]? = some ⟨ask, .waiting wait⟩)
    (handshake : wait.awaited = .handshake) {result : Except Failure (Option RunOutput)}
    (returned : (step contexts settings (run contexts settings ({}, w) actions)
      (.proceed caller)).1.calls[caller]? = some ⟨ask, .finished result⟩)
    (later : List Action) {t : Transition}
    (member : t ∈ trace contexts settings ({}, w) actions ++
      trace contexts settings (run contexts settings ({}, w) actions) (.proceed caller :: later))
    (acts : t.action.actor? t.before = some caller) {generation : Nat} {id : CorrelationId}
    {code : String} {result' : Except Failure Unit} :
    .posted generation ⟨id, .run code⟩ result' ∉ t.effects := by
  intro posted
  have idle : ∀ ask, t.before.calls[caller]? ≠ some ⟨ask, .admitted⟩ := by
    intro ask' admitted
    rcases List.mem_append.mp member with before | after
    · obtain ⟨earlier, rest, split⟩ := List.append_of_mem before
      have course := course_of_run contexts settings w actions
      rw [split] at course
      have shaking : (run contexts settings ({}, w) actions).1.Shaking caller := by
        intro call found'
        cases found.symm.trans found'
        exact ⟨wait, rfl, handshake⟩
      obtain ⟨other, waits, -⟩ := course.shaking shaking _ admitted
      cases waits
    · rcases List.mem_cons.mp after with rfl | after
      · cases found.symm.trans admitted
      · obtain ⟨earlier, rest, split⟩ := List.append_of_mem after
        obtain ⟨front, back, -, -, here, -⟩ := trace_split_run contexts settings split
        rw [here] at admitted
        cases (ended_run contexts returned rfl front).symm.trans admitted
  have whole := course_of_run contexts settings w (actions ++ .proceed caller :: later)
  rw [trace_append] at whole
  obtain ⟨earlier, rest, split⟩ := List.append_of_mem member
  rw [split] at whole
  obtain ⟨other, ask', proceeds, admitted⟩ := whole.split.2.posts_snippet posted
  rw [proceeds] at acts
  obtain rfl := Option.some.inj acts
  exact idle ask' admitted

theorem lapsed_handshake_disturbs_nothing {σ : Type} (contexts : Contexts σ) (settings : Settings)
    (distinct : Function.Injective settings.ids) (w : σ) (actions : List Action) {caller : Nat}
    {ask : Ask} {wait : Wait} {record : Record}
    (found : (run contexts settings ({}, w) actions).1.calls[caller]? = some ⟨ask, .waiting wait⟩)
    (handshake : wait.awaited = .handshake) (expired : wait.expired = true)
    (held : (run contexts settings ({}, w) actions).1.record? wait.id = some record) :
    Lapses contexts settings (trace contexts settings ({}, w) actions)
      (run contexts settings ({}, w) actions) caller ask wait := by
  have course := course_of_run contexts settings w actions
  have orderly := course.orderly distinct
  obtain ⟨rfl, pending⟩ := (course.linked distinct).own_record orderly found held
  have budget := course.budget found
  rw [handshake] at budget
  have eq := proceed_lapsed contexts settings found handshake expired held
    (run contexts settings ({}, w) actions).2
  have reduced : (step contexts settings (run contexts settings ({}, w) actions)
      (.proceed caller)).1.pending =
        (run contexts settings ({}, w) actions).1.pending.erase (wait.record caller) := by
    rw [eq]
    exact orderly.filter_eq_erase pending
  have returned : (step contexts settings (run contexts settings ({}, w) actions)
      (.proceed caller)).1.calls[caller]? =
        some ⟨ask, .finished (.error (.initTimeout (ask.readiness settings)))⟩ := by
    rw [eq, show ask.readiness settings = wait.budget from budget.symm]
    exact setPhase_found (s := State.removeRecord _ wait.id) found _
  have gone : ∀ later, wait.record caller ∈
      departures (trace contexts settings ({}, w) (actions ++ .proceed caller :: later)) := by
    intro later
    rw [trace_append, departures_append]
    apply List.mem_append_right
    apply List.mem_flatMap.mpr
    refine ⟨_, List.mem_cons_self .., List.mem_filter.mpr ⟨pending, ?_⟩⟩
    rw [transition_after, reduced]
    simpa using orderly.pending_nodup.not_mem_erase
  constructor
  case removed => exact ⟨pending, reduced⟩
  case returned => exact returned
  case others =>
    intro other apart
    rw [eq]
    exact calls_setPhase_of_ne apart _
  case kept => rw [eq]; rfl
  case silent =>
    refine ⟨by rw [eq], ?_⟩
    rw [transition, proceed_lapsed contexts.recorded settings found handshake expired held]
  case unposted =>
    intro later t member acts generation id code result
    exact run_unposted found handshake returned later member acts
  case unheard =>
    intro later generation kind
    have after := (course_of_run contexts settings w (actions ++ .proceed caller :: later)).orderly
      distinct
    have absent := after.not_pending_of_departed (gone later)
    rw [run_append] at absent
    exact step_response_unmatched contexts settings absent _ generation kind
  case renewed =>
    intro later ask' generation unready
    have after := (course_of_run contexts settings w (actions ++ .proceed caller :: later)).orderly
      distinct
    have known := after.balanced.mem_iff.mpr (List.mem_append_left _ (gone later))
    have fresh := after.fresh distinct known
    rw [← run_append] at unready ⊢
    exact ⟨fresh.symm, run_renewed contexts settings distinct w _ unready ask'⟩

def impatience : List Action :=
  [.begin (.ready ⟨1⟩), .begin (.run "wait" (some ⟨⟨5⟩, ⟨9⟩⟩)), .advance ⟨2⟩, .proceed 0]

theorem lapsed_handshake_disturbs_nothing_impatience :
    Lapses willing counted (trace willing counted ({}, ()) impatience)
      (run willing counted ({}, ()) impatience) 0 (.ready ⟨1⟩)
      ⟨.handshake, counted.ids 0, ⟨1⟩, ⟨1⟩, none, true⟩ ∧
    (step willing counted (run willing counted ({}, ()) impatience) (.proceed 0)).1.live =
      some ⟨1, false⟩ :=
  ⟨lapsed_handshake_disturbs_nothing willing counted counted_injective () impatience rfl rfl rfl rfl,
    rfl⟩

end Sandbox.Client

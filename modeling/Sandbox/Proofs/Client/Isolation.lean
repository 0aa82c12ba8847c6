import Sandbox.Proofs.Client.Bystander
import Sandbox.Proofs.Client.Ledger

namespace Sandbox.Client

/-! ## Failed posts -/

structure Unposted (settings : Settings) (t : Transition) (generation : Nat) (request : Request)
    (cause : Failure) : Prop where
  failed : ∃ caller, t.action.actor? t.before = some caller ∧
    t.after.phase? caller = some (.finished (.error cause))
  retired : t.after.live = none
  emptied : t.after.pending = [] ∨ t.before.live = none ∧ t.after.pending = t.before.pending
  current : t.before.live = none ∨ t.before.current? = some generation
  destroyed : ∀ other, .destroyed other ∈ t.effects → other = generation
  unregistered : request = ⟨.warmup, .ping⟩ ∨
    request.id = settings.ids t.before.issued ∧ t.after.issued = t.before.issued + 1

theorem phase?_finish {s : State} {caller : Nat} (known : caller < s.calls.length)
    (outcome : Except Failure (Option RunOutput)) :
    (s.finish caller outcome).phase? caller = some (.finished outcome) := by
  rw [State.phase?, State.finish, State.calls_setPhase, if_pos rfl, List.getElem?_eq_getElem known]
  rfl

theorem cleared_length (s : State) : s.cleared.calls.length = s.calls.length := by
  apply Nat.le_antisymm
  · rw [← List.getElem?_eq_none_iff, s.calls_cleared]
    simp
  · rw [← List.getElem?_eq_none_iff]
    have := s.calls_cleared s.cleared.calls.length
    rw [List.getElem?_eq_none (Nat.le_refl _)] at this
    split at this
    · simpa using this.symm
    · exact this.symm

section
variable {settings : Settings} {s s' : State} {action : Action} {effects : List Effect}
  {generation : Nat} {request : Request} {cause : Failure}

theorem not_posted_of_teardown {result : Except Failure Unit}
    (posted : .posted generation request result ∈ s.teardown) : False := by
  rw [State.teardown] at posted
  cases s.live <;> simp at posted

theorem Dispatch.post_failed {provided : State} {caller : Nat} {awaited : Awaited}
    {kind : Request.Kind} {budget : Duration}
    (dispatch : Dispatch settings provided caller awaited kind budget effects s')
    (earlier : List Effect) (acts : action.actor? s = some caller) (known : caller < provided.calls.length)
    (live : s.live = none ∨ s.current? = provided.current?) (issued : provided.issued = s.issued)
    (quiet : ∀ e ∈ earlier, ∀ g, (∀ request cause, e ≠ .posted g request (.error cause)) ∧
      e ≠ .destroyed g)
    (failed : .posted generation request (.error cause) ∈ earlier ++ effects) :
    Unposted settings ⟨action, s, earlier ++ effects, s'⟩ generation request cause := by
  have now : .posted generation request (.error cause) ∈ effects := by
    rcases List.mem_append.mp failed with before | now
    · exact absurd rfl ((quiet _ before _).1 _ _)
    · exact now
  cases dispatch with
  | registered held => simp at now
  | @unposted live' held cause' =>
    simp only [List.mem_cons, Effect.posted.injEq, Except.error.injEq, List.not_mem_nil, or_false,
      reduceCtorEq] at now
    obtain ⟨rfl, rfl, rfl⟩ := now
    refine ⟨⟨caller, acts, ?_⟩, cleared_live _, .inl (cleared_pending _), ?_, ?_, ?_⟩
    · exact phase?_finish (by rw [cleared_length]; exact known) _
    · exact live.imp_right fun same => same.trans (congrArg _ held)
    · intro other destroyed
      rcases List.mem_append.mp destroyed with before | now
      · exact absurd rfl (quiet _ before other).2
      · simpa using now
    · refine .inr ⟨congrArg _ issued, ?_⟩
      change (State.cleared _).issued = _
      rw [cleared_issued, issued]

theorem Change.post_failed (change : Change settings s action effects s')
    (failed : .posted generation request (.error cause) ∈ effects) :
    Unposted settings ⟨action, s, effects, s'⟩ generation request cause := by
  cases change with
  | reset | crashed current => exact (not_posted_of_teardown failed).elim
  | dropped => exact (not_posted_of_teardown failed).elim
  | failed current found handshake => exact (not_posted_of_teardown failed).elim
  | overran found expired held run => exact (not_posted_of_teardown failed).elim
  | uncreated absent cause' => simp at failed
  | sent found ready dispatch =>
    have known := (List.getElem?_eq_some_iff.mp found).choose
    exact dispatch.post_failed [] rfl known (.inr rfl) rfl (by simp) failed
  | unwarmed absent cause' =>
    simp only [List.mem_cons, Effect.posted.injEq, Except.error.injEq, List.not_mem_nil, or_false,
      reduceCtorEq, false_or] at failed
    obtain ⟨rfl, rfl, rfl⟩ := failed
    refine ⟨⟨s.calls.length, rfl, phase?_finish (by simp [State.opened]) _⟩, absent, ?_, .inl absent,
      by simp, .inl rfl⟩
    exact .inr ⟨absent, rfl⟩
  | pinged provision unready dispatch =>
    obtain ⟨pending, issued, calls⟩ := provision.table
    refine dispatch.post_failed _ rfl ?_ ?_ issued ?_ failed
    · rw [calls]
      simp [State.opened]
    · rcases provision.live with ⟨current, -, -⟩ | ⟨absent, -, -, -⟩
      · exact .inr current.symm
      · exact .inl absent
    · cases provision <;> simp
  | _ => simp at failed

end

/-! ## Where a record was dispatched -/

def OnlyOn (past : List Transition) (record : Record) (generation : Nat) : Prop :=
  ∀ other, DispatchedOn past record other ↔ other = generation

section
variable {settings : Settings} {past : List Transition} {s : State}

theorem Course.registers (course : Course settings past s)
    (distinct : Function.Injective settings.ids) {t : Transition} (member : t ∈ past)
    {record : Record} {generation : Nat} (dispatches : t.Dispatches record generation) :
    record ∈ t.registered := by
  obtain ⟨earlier, later, rfl⟩ := List.append_of_mem member
  obtain ⟨before, change⟩ := course.split
  have orderly := before.orderly distinct
  cases change.table with
  | reduced shorter issued =>
    have longer := dispatches.pending ▸ shorter.length_le
    exact absurd longer (Nat.not_succ_le_self _)
  | added new id issued =>
    obtain ⟨rfl, -⟩ := List.cons.inj (dispatches.pending.symm.trans new.pending)
    have absent : record ∉ t.before.pending :=
      fun held => orderly.fresh distinct (orderly.pending_registered held) id
    rw [Transition.registered_eq_singleton new.pending absent]
    exact List.mem_singleton_self _

theorem Course.dispatched_once (course : Course settings past s)
    (distinct : Function.Injective settings.ids) {record : Record} {generation : Nat}
    (dispatched : DispatchedOn past record generation) : OnlyOn past record generation := by
  intro other
  refine ⟨?_, fun same => same ▸ dispatched⟩
  rintro ⟨t', member', dispatches'⟩
  obtain ⟨t, member, dispatches⟩ := dispatched
  have registered := course.registers distinct member dispatches
  have registered' := course.registers distinct member' dispatches'
  have apart := (List.nodup_flatMap.mp ((course.orderly distinct).once.of_map _)).2
  have same : t' = t := by
    refine List.Pairwise.forall_of_forall_of_flip
      (R := fun a b => record ∈ a.registered → record ∈ b.registered → a = b) (fun _ _ _ _ => rfl)
      (apart.imp ?_) (apart.imp ?_) member' member registered' registered
    · exact fun disjoint before after => (disjoint before after).elim
    · exact fun disjoint before after => (disjoint after before).elim
  rw [same] at dispatches'
  exact Option.some.inj (dispatches'.current.symm.trans dispatches.current)

theorem Course.pending_onlyOn (course : Course settings past s)
    (distinct : Function.Injective settings.ids) {record : Record} (held : record ∈ s.pending)
    {generation : Nat} (current : s.current? = some generation) :
    OnlyOn past record generation := by
  obtain ⟨generation', current', dispatched⟩ := course.numbered.dispatched record held
  obtain rfl := Option.some.inj (current.symm.trans current')
  exact course.dispatched_once distinct dispatched

theorem Course.pending_current (course : Course settings past s)
    (distinct : Function.Injective settings.ids) {record : Record} {generation : Nat}
    (dispatched : DispatchedOn past record generation) (held : record ∈ s.pending) :
    s.current? = some generation := by
  obtain ⟨other, current, elsewhere⟩ := course.numbered.dispatched record held
  obtain rfl := (course.dispatched_once distinct dispatched other).mp elsewhere
  exact current

end

/-! ## Confinement -/

/-- Where an action comes from: an event of a context, a call whose wait for a context has expired,
or a post to a context that failed. -/
inductive Origin (past : List Transition) (t : Transition) (generation : Nat) : Prop
  | event {event : Event} (action : t.action = .event generation event)
  | expiry {caller : Nat} {ask : Ask} {wait : Wait} (action : t.action = .proceed caller)
    (found : t.before.calls[caller]? = some ⟨ask, .waiting wait⟩) (expired : wait.expired = true)
    (dispatched : DispatchedOn past (wait.record caller) generation)
  | post {request : Request} {cause : Failure}
    (failed : .posted generation request (.error cause) ∈ t.effects)

def WaitsOn (past : List Transition) (s : State) (caller generation : Nat) : Prop :=
  ∃ ask wait, s.calls[caller]? = some ⟨ask, .waiting wait⟩ ∧
    OnlyOn past (wait.record caller) generation

structure Confined (past : List Transition) (t : Transition) (generation : Nat) : Prop where
  removed : ∀ record ∈ t.removed, OnlyOn past record generation
  touched : ∀ caller, t.after.calls[caller]? = t.before.calls[caller]? ∨
    WaitsOn past t.before caller generation ∨
    t.action.actor? t.before = some caller ∧
      ∃ request cause, .posted generation request (.error cause) ∈ t.effects
  live : t.after.live = t.before.live ∨ t.before.current? = some generation ∧
    (t.after.current? = some generation ∨ t.after.live = none)
  destroyed : ∀ other, .destroyed other ∈ t.effects → other = generation

section
variable {settings : Settings} {past : List Transition} {s s' : State} {action : Action}
  {effects : List Effect} {generation : Nat}

theorem Course.confined (course : Course settings past s)
    (distinct : Function.Injective settings.ids) (change : Change settings s action effects s')
    (removed : ∀ record ∈ s.pending, record ∉ s'.pending → OnlyOn past record generation)
    (acts : ∀ caller, action.actor? s = some caller → WaitsOn past s caller generation ∨
      ∃ request cause, .posted generation request (.error cause) ∈ effects)
    (live : s'.live = s.live ∨ s.current? = some generation)
    (destroyed : ∀ other, .destroyed other ∈ effects → other = generation) :
    Confined past ⟨action, s, effects, s'⟩ generation := by
  refine ⟨?_, ?_, ?_, destroyed⟩
  · intro record gone
    obtain ⟨held, left⟩ := List.mem_filter.mp gone
    exact removed record held (by simpa using left)
  · intro caller
    by_cases acting : action.actor? s = some caller
    · rcases acts caller acting with waits | failed
      · exact .inr (.inl waits)
      · exact .inr (.inr ⟨acting, failed⟩)
    · rcases change.untouched acting with same | ⟨record, held, left, rfl, reply, told⟩
      · exact .inl same
      · obtain ⟨⟨ask, phase⟩, found, awaits⟩ := (course.linked distinct).awaited record held
        cases awaits with
        | @waiting wait own unreplied =>
          exact .inr (.inl ⟨ask, wait, found, own.symm ▸ removed record held left⟩)
        | cancelled =>
          rw [found] at told
          exact .inl (told.trans found.symm)
  · rcases live with same | current
    · exact .inl same
    · cases change.live with
      | kept same => exact .inr ⟨current, .inl (same.trans current)⟩
      | torn live pending => exact .inr ⟨current, .inr live⟩
      | made absent current' => simp [State.current?, absent] at current
      | missed absent live pending => exact .inr ⟨current, .inr live⟩

theorem destroyed_teardown {other : Nat} (destroyed : .destroyed other ∈ s.teardown) :
    s.current? = some other := by
  rw [State.teardown] at destroyed
  rw [State.current?]
  cases held : s.live with
  | none => simp [held] at destroyed
  | some live => simpa [held, eq_comm] using destroyed

theorem State.destroyed_mem_teardown {generation : Nat} (current : s.current? = some generation) :
    .destroyed generation ∈ s.teardown := by
  obtain ⟨live, held, rfl⟩ := Option.map_eq_some_iff.mp current
  simp [teardown, held]

theorem Change.of_event {event : Event}
    (change : Change settings s (.event generation event) effects s') :
    s' = s ∧ effects = [] ∨
      s.current? = some generation ∧ ∀ e ∈ effects, e ∈ s.teardown := by
  cases change with
  | idle => exact .inl ⟨rfl, rfl⟩
  | crashed current => exact .inr ⟨current, fun _ => id⟩
  | answered current found survives => exact .inr ⟨current, by simp⟩
  | failed current found handshake => exact .inr ⟨current, fun _ => id⟩

inductive WaitSection (s : State) (caller : Nat) (ask : Ask) (wait : Wait) (effects : List Effect)
    (s' : State) : Prop
  | waits {wait' : Wait} (pending : s'.pending = s.pending) (live : s'.live = s.live)
    (quiet : effects = []) (after : s'.calls[caller]? = some ⟨ask, .waiting wait'⟩)
    (same : wait'.id = wait.id)
  | replied {reply : Except Failure Reply} (pending : s'.pending = s.pending)
    (live : s'.live = s.live) (quiet : effects = []) (replied : Replied s wait reply)
    (after : s'.calls[caller]? = some ⟨ask, resolution ask wait.awaited reply⟩)
  | timed {record : Record} (held : s.record? wait.id = some record) (expired : wait.expired = true)
    (left : ∀ other ∈ s'.pending, other.id ≠ wait.id)
    (torn : ∀ e ∈ effects, e ∈ s.teardown)
    (after : s'.calls[caller]? = some ⟨ask, resolution ask wait.awaited
      (Removal.outcome ⟨wait.record caller, .timer wait.budget⟩)⟩)

theorem Change.of_wait {caller : Nat} {ask : Ask} {wait : Wait}
    (change : Change settings s (.proceed caller) effects s')
    (found : s.calls[caller]? = some ⟨ask, .waiting wait⟩) :
    WaitSection s caller ask wait effects s' := by
  cases change with
  | idle => exact .waits rfl rfl rfl found rfl
  | refused found' unready => exact nomatch found.symm.trans found'
  | sent found' ready dispatch => exact nomatch found.symm.trans found'
  | noticed found' unexpired unreplied due =>
    cases found.symm.trans found'
    exact .waits rfl rfl rfl (setPhase_found found _) rfl
  | resolved found' replied =>
    cases found.symm.trans found'
    exact .replied rfl rfl rfl replied (setPhase_found found _)
  | lapsed found' expired held handshake =>
    cases found.symm.trans found'
    refine .timed held expired ?_ (by simp) ?_
    · simp [State.finish, State.setPhase, State.removeRecord]
    rw [Removal.outcome, show (wait.record caller).awaited = _ from handshake, handshake]
    exact setPhase_found (s := s.removeRecord wait.id) found _
  | overran found' expired held run =>
    cases found.symm.trans found'
    refine .timed held expired ?_ (fun _ => id) ?_
    · simp [State.finish, State.setPhase, cleared_pending]
    rw [Removal.outcome, show (wait.record caller).awaited = _ from run, run]
    obtain ⟨phase, still⟩ := cleared_found (s := s.removeRecord wait.id) found
    exact setPhase_found still _

theorem Course.origin_confined {t : Transition}
    (course : Course settings past t.before) (distinct : Function.Injective settings.ids)
    (change : Change settings t.before t.action t.effects t.after)
    (origin : Origin past t generation) : Confined past t generation := by
  obtain ⟨action, s, effects, s'⟩ := t
  dsimp only at course change
  have torn : s.current? = some generation → (∀ e ∈ effects, e ∈ s.teardown) →
      ∀ other, .destroyed other ∈ effects → other = generation := by
    intro current only other destroyed
    exact Option.some.inj ((destroyed_teardown (only _ destroyed)).symm.trans current)
  have hosted : s.current? = some generation →
      ∀ record ∈ s.pending, record ∉ s'.pending → OnlyOn past record generation :=
    fun current record held _ => course.pending_onlyOn distinct held current
  cases origin with
  | event from_context =>
    dsimp only at from_context
    subst from_context
    rcases change.of_event with ⟨rfl, rfl⟩ | ⟨current, only⟩
    · refine course.confined distinct change ?_ (by simp [Action.actor?]) (.inl rfl) (by simp)
      exact fun record held left => absurd held left
    · exact course.confined distinct change (hosted current) (by simp [Action.actor?]) (.inr current)
        (torn current only)
  | @expiry caller ask wait timer found expired dispatched =>
    dsimp only at timer found
    subst timer
    have only_on := course.dispatched_once distinct dispatched
    have acts : ∀ i, Action.actor? s (.proceed caller) = some i → WaitsOn past s i generation ∨
        ∃ request cause, .posted generation request (.error cause) ∈ effects := by
      rintro i ⟨⟩
      exact .inl ⟨ask, wait, found, only_on⟩
    have quiet : s'.pending = s.pending → s'.live = s.live → effects = [] →
        Confined past ⟨.proceed caller, s, effects, s'⟩ generation := by
      rintro pending live rfl
      refine course.confined distinct change ?_ acts (.inl live) (by simp)
      exact fun record held left => absurd (pending ▸ held) left
    cases change.of_wait found with
    | waits pending live silent after same => exact quiet pending live silent
    | replied pending live silent replied after => exact quiet pending live silent
    | @timed record held expired left only after =>
      -- The record is still there, so the context that the call waits for is the live one.
      obtain ⟨rfl, pending⟩ :=
        (course.linked distinct).own_record (course.orderly distinct) found held
      obtain ⟨live, current, on_live⟩ := course.numbered.dispatched _ pending
      obtain rfl := (only_on live).mp on_live
      exact course.confined distinct change (hosted current) acts (.inr current) (torn current only)
  | post failed =>
    dsimp only at failed
    have unposted := change.post_failed failed
    have acts : ∀ i, action.actor? s = some i → WaitsOn past s i generation ∨
        ∃ request cause, .posted generation request (.error cause) ∈ effects :=
      fun _ _ => .inr ⟨_, _, failed⟩
    rcases unposted.current with absent | current
    · have empty := course.numbered.idle absent
      refine course.confined distinct change ?_ acts (.inl ?_) unposted.destroyed
      · simp [show s.pending = [] from empty]
      · exact unposted.retired.trans absent.symm
    · exact course.confined distinct change (hosted current) acts (.inr current) unposted.destroyed

end

/-- At every moment of every run the table holds records of the live context only, and generations
grow. If ids are never issued twice, what originates from one generation never reaches another. -/
theorem generations_isolated {σ : Type} (contexts : Contexts σ) (settings : Settings) (w : σ)
    (actions : List Action) :
    Numbered (trace contexts settings ({}, w) actions) (run contexts settings ({}, w) actions).1 ∧
    (creations (trace contexts settings ({}, w) actions)).Pairwise (· < ·) ∧
    (Function.Injective settings.ids → ∀ earlier t later,
      trace contexts settings ({}, w) actions = earlier ++ t :: later →
      ∀ generation, Origin earlier t generation → Confined earlier t generation) := by
  have course := course_of_run contexts settings w actions
  refine ⟨course.numbered, ?_, ?_⟩
  · rw [course.numbered.created]
    exact List.pairwise_lt_range'
  · intro distinct earlier t later split generation origin
    rw [split] at course
    obtain ⟨before, change⟩ := course.split
    exact before.origin_confined distinct change origin

def willing : Contexts Unit where
  create w _ := (.ok (), w)
  post w _ _ := (.ok (), w)
  destroy w _ := w

def counted : Settings where
  ids n := ⟨String.ofList (List.replicate n 'x')⟩

theorem counted_injective : Function.Injective counted.ids := by
  intro a b same
  have letters := String.ofList_inj.mp (congrArg CorrelationId.text same)
  simpa using congrArg List.length letters

def replacement : List Action :=
  [.begin (.ready ⟨1⟩), .event 1 (.crashed "gone"), .begin (.ready ⟨1⟩)]

def straggler : Transition :=
  transition willing counted (run willing counted ({}, ()) replacement).1 ()
    (.event 1 (.response ⟨counted.ids 1, .ready⟩))

theorem generations_isolated_straggler : straggler.before.current? = some 2 ∧
    straggler.before.record? (counted.ids 1) = some ⟨counted.ids 1, .handshake, 1⟩ ∧
    Confined (trace willing counted ({}, ()) replacement) straggler 1 := by
  refine ⟨rfl, rfl, ?_⟩
  obtain ⟨-, -, confined⟩ := generations_isolated willing counted ()
    (replacement ++ [.event 1 (.response ⟨counted.ids 1, .ready⟩)])
  exact confined counted_injective _ straggler [] rfl 1 (.event rfl)

end Sandbox.Client

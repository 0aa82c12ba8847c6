import Sandbox.Client.Stage
import Sandbox.Proofs.Client.Lifecycle
import Sandbox.Proofs.Client.Teardown

namespace Sandbox.Client

/-! ## Calls that fail before they wait -/

inductive Misses (t : Transition) (cause : Failure) : Prop
  | uncreated {generation : Nat} (effects : t.effects = [.created generation (.error cause)])
    (absent : t.before.live = none) (still : t.after.live = none) : Misses t cause
  | unposted {generation : Nat} {request : Request}
    (failed : .posted generation request (.error cause) ∈ t.effects)
    (destroyed : .destroyed generation ∈ t.effects) (retired : t.after.live = none) :
    Misses t cause
  | refused (notReady : cause = .notReady) (unready : t.before.isReady = false)
    (quiet : t.effects = []) (kept : t.after.live = t.before.live) : Misses t cause

section
variable {settings : Settings} {s s' : State} {action : Action} {effects : List Effect}
  {caller : Nat} {ask : Ask} {cause : Failure}

theorem Dispatch.misses {provided : State} {awaited : Awaited} {kind : Request.Kind}
    {budget : Duration} (dispatch : Dispatch settings provided caller awaited kind budget effects s')
    (earlier : List Effect)
    (after : s'.calls[caller]? = some ⟨ask, .finished (.error cause)⟩) :
    Misses ⟨action, s, earlier ++ effects, s'⟩ cause := by
  cases dispatch with
  | registered held => cases phase_of_setPhase after
  | unposted held cause' =>
    cases phase_of_setPhase after
    exact .unposted (List.mem_append_right _ (List.mem_cons_self ..)) (by simp) (cleared_live _)

theorem Change.misses (change : Change settings s action effects s')
    (acts : action.actor? s = some caller)
    (before : s.calls[caller]? ≠ some ⟨ask, .finished (.error cause)⟩)
    (after : s'.calls[caller]? = some ⟨ask, .finished (.error cause)⟩) :
    (∃ wait, s.calls[caller]? = some ⟨ask, .waiting wait⟩) ∨
      Misses ⟨action, s, effects, s'⟩ cause := by
  have waited : ∀ {ask' : Ask} {wait : Wait}, s.calls[caller]? = some ⟨ask', .waiting wait⟩ →
      ∃ wait, s.calls[caller]? = some ⟨ask, .waiting wait⟩ := by
    intro ask' wait found
    obtain ⟨phase, after'⟩ := change.asks found
    cases after.symm.trans after'
    exact ⟨wait, found⟩
  cases change with
  | idle => exact absurd after before
  | cancelled found active =>
    obtain rfl := Option.some.inj acts
    cases phase_of_setPhase after
  | refused found unready =>
    obtain rfl := Option.some.inj acts
    cases phase_of_setPhase after
    exact .inr (.refused rfl unready rfl rfl)
  | sent found ready dispatch =>
    obtain rfl := Option.some.inj acts
    exact .inr (dispatch.misses [] after)
  | noticed found | resolved found | lapsed found | overran found =>
    obtain rfl := Option.some.inj acts
    exact .inl (waited found)
  | uncreated absent cause' =>
    obtain rfl := Option.some.inj acts
    cases phase_of_setPhase after
    exact .inr (.uncreated rfl absent absent)
  | unwarmed absent cause' =>
    obtain rfl := Option.some.inj acts
    cases phase_of_setPhase after
    exact .inr (.unposted (.tail _ (.head _)) (.tail _ (.tail _ (.head _))) absent)
  | @entered ask' ready =>
    obtain rfl := Option.some.inj acts
    have leads := phase_of_setPhase after
    cases ask' <;> cases leads
  | pinged provision unready dispatch =>
    obtain rfl := Option.some.inj acts
    exact .inr (dispatch.misses _ after)
  | _ => cases acts

end

/-! ## Calls that waited -/

theorem answer_error {awaited : Awaited} {kind : Response.Kind} {cause : Failure}
    (failed : answer awaited kind = .error cause) :
    cause.isTerminal = true ↔ awaited = .handshake ∧ ∃ message, kind = .failure message := by
  cases awaited <;> cases kind <;> cases failed <;> simp [Failure.isTerminal]

theorem Removal.of_error {ask : Ask} {removal : Removal} {cause : Failure}
    (leads : resolution ask removal.record.awaited removal.outcome = .finished (.error cause)) :
    removal.outcome = .error cause := by
  obtain ⟨⟨id, awaited, caller⟩, kind | budget | _⟩ := removal
  · cases awaited <;> cases kind <;> cases ask <;> simp_all [outcome, answer, resolution]
  · cases awaited <;> simp_all [outcome, resolution]
  · simp_all [outcome, resolution]

structure Verdict (earlier : List Transition) (t : Transition) (record : Record) (generation : Nat)
    (cause : Failure) : Prop where
  ran : OnlyOn earlier record generation
  current : t.before.current? = some generation
  destroyed : cause.isTerminal = true ↔ .destroyed generation ∈ t.effects
  left : t.after.current? = if cause.isTerminal = true then none else some generation

section
variable {settings : Settings} {past : List Transition} {s s' : State} {action : Action}
  {effects : List Effect} {record : Record} {generation : Nat} {cause : Failure}

theorem Verdict.ended (ran : OnlyOn past record generation) (current : s.current? = some generation)
    (terminal : cause.isTerminal = true) (destroyed : .destroyed generation ∈ effects)
    (retired : s'.live = none) : Verdict past ⟨action, s, effects, s'⟩ record generation cause := by
  refine ⟨ran, current, iff_of_true terminal destroyed, ?_⟩
  rw [if_pos terminal]
  exact congrArg (Option.map Live.generation) retired

theorem Verdict.spared (ran : OnlyOn past record generation)
    (current : s.current? = some generation) (other : cause.isTerminal = false)
    (custody : Custody s.current? [] s'.current?) :
    Verdict past ⟨action, s, [], s'⟩ record generation cause := by
  refine ⟨ran, current, iff_of_false (by simp [other]) nofun, ?_⟩
  rw [current] at custody
  rw [if_neg (by simp [other])]
  generalize s'.current? = held at custody ⊢
  cases custody
  rfl

theorem Course.verdict (course : Course settings past s)
    (distinct : Function.Injective settings.ids) (change : Change settings s action effects s')
    {removal : Removal} (removed : removal ∈ (Transition.mk action s effects s').removals)
    (outcome : removal.outcome = .error cause) :
    ∃ generation, Verdict past ⟨action, s, effects, s'⟩ removal.record generation cause := by
  obtain ⟨held, left, -⟩ := (Transition.mem_removals _).mp removed
  dsimp only at held left
  obtain ⟨generation, current, -⟩ := course.numbered.dispatched _ held
  have ran := course.pending_onlyOn distinct held current
  have custody := change.custody
  refine ⟨generation, ?_⟩
  cases course.explained distinct change removed with
  | @response record kind generation' acts current' own =>
    dsimp only at acts
    subst acts
    have terminal := answer_error outcome
    have matched : ∀ {other : Record}, s.record? record.id = some other → other = record := by
      intro other found
      obtain ⟨held', same⟩ := mem_of_record? found
      exact (course.orderly distinct).alone held other held' same
    cases change with
    | idle => exact absurd held left
    | answered current'' found survives =>
      obtain rfl := matched found
      refine .spared ran current ?_ custody
      rw [Bool.eq_false_iff, Ne, terminal]
      rintro ⟨handshake, message, failed⟩
      exact survives handshake message failed
    | failed current'' found handshake =>
      obtain rfl := matched found
      exact .ended ran current (terminal.mpr ⟨handshake, _, rfl⟩)
        (State.destroyed_mem_teardown current) (cleared_live _)
  | @timer record ask wait acts found own expired due =>
    dsimp only at acts found own
    subst acts
    cases change with
    | idle => exact absurd held left
    | refused found' => cases found.symm.trans found'
    | sent found' => cases found.symm.trans found'
    | noticed => exact absurd held left
    | resolved => exact absurd held left
    | lapsed found' expired' held' handshake =>
      cases found.symm.trans found'
      refine .spared ran current ?_ custody
      rw [Removal.outcome, ← own, show (wait.record _).awaited = _ from handshake] at outcome
      cases outcome
      rfl
    | overran found' expired' held' run =>
      cases found.symm.trans found'
      refine .ended ran current ?_ (State.destroyed_mem_teardown current) (cleared_live _)
      rw [Removal.outcome, ← own, show (wait.record _).awaited = _ from run] at outcome
      cases outcome
      rfl
  | @reset record generation' current' destroyed retired =>
    obtain rfl := Option.some.inj (current.symm.trans current')
    cases outcome
    exact .ended ran current rfl destroyed retired

end

/-! ## Where an error comes from -/

inductive Blame (past : List Transition) (caller : Nat) (cause : Failure) : Prop
  | missed {t : Transition} (member : t ∈ past) (acts : t.action.actor? t.before = some caller)
    (misses : Misses t cause) : Blame past caller cause
  | removed {earlier later : List Transition} {t : Transition} {removal : Removal}
    {generation : Nat} (split : past = earlier ++ t :: later) (removed : removal ∈ t.removals)
    (own : removal.record.caller = caller) (outcome : removal.outcome = .error cause)
    (verdict : Verdict earlier t removal.record generation cause) : Blame past caller cause

section
variable {settings : Settings} {past : List Transition} {s : State}

theorem Course.blamed (course : Course settings past s) (distinct : Function.Injective settings.ids)
    {caller : Nat} {ask : Ask} {cause : Failure}
    (found : s.calls[caller]? = some ⟨ask, .finished (.error cause)⟩) : Blame past caller cause := by
  obtain ⟨earlier, t, later, rfl, acts, unfinished, after⟩ := course.concluded found
  obtain ⟨before, change⟩ := course.split
  rcases change.misses acts unfinished after with ⟨wait, waits⟩ | misses
  · obtain ⟨removal, removed, own, leads⟩ := before.returned distinct change waits after
    obtain ⟨u, member, now⟩ := List.mem_flatMap.mp removed
    have among : u ∈ earlier ++ t :: later := by
      rw [List.append_cons]
      exact List.mem_append_left _ member
    obtain ⟨first, rest, split⟩ := List.append_of_mem among
    rw [split] at course
    obtain ⟨before', change'⟩ := course.split
    obtain ⟨generation, verdict⟩ :=
      before'.verdict distinct change' now (Removal.of_error leads)
    exact .removed split now own (Removal.of_error leads) verdict
  · exact .missed (List.mem_append_right _ (List.mem_cons_self ..)) acts misses

theorem Change.torn {s' : State} {action : Action} {effects : List Effect} {generation : Nat}
    (change : Change settings s action effects s') (destroyed : .destroyed generation ∈ effects) :
    s'.live = none := by
  have dispatched : ∀ {provided : State} {caller : Nat} {awaited : Awaited} {kind : Request.Kind}
      {budget : Duration} {posted : List Effect},
      Dispatch settings provided caller awaited kind budget posted s' →
      .destroyed generation ∈ posted → s'.live = none := by
    intro provided caller awaited kind budget posted dispatch destroyed
    cases dispatch with
    | registered held => simp at destroyed
    | unposted held cause => exact cleared_live _
  cases change with
  | reset | crashed current => exact cleared_live s
  | dropped => exact cleared_live s
  | failed current found handshake => exact cleared_live _
  | overran found expired held run => exact cleared_live _
  | sent found ready dispatch => exact dispatched dispatch destroyed
  | unwarmed absent cause => exact absent
  | pinged provision unready dispatch =>
    refine dispatched dispatch ((List.mem_append.mp destroyed).resolve_left ?_)
    cases provision <;> simp
  | _ => simp at destroyed

theorem Course.discarded (course : Course settings past s) {t : Transition} (member : t ∈ past)
    {generation : Nat} (destroyed : .destroyed generation ∈ t.effects) :
    s.current? ≠ some generation ∧ generation ≤ s.generation := by
  have gone : generation ∈ ended (past.flatMap Transition.effects) :=
    List.mem_filterMap.mpr ⟨_, List.mem_flatMap.mpr ⟨t, member, destroyed⟩, rfl⟩
  have balance : opened (past.flatMap Transition.effects) = _ := course.custody.balance
  have once := course.opened_increasing.imp Nat.ne_of_lt
  have made : generation ∈ opened (past.flatMap Transition.effects) :=
    balance ▸ List.mem_append_left _ gone
  constructor
  · intro current
    have count := course.custody.count_ended once made
    rw [if_pos current, List.count_eq_zero] at count
    exact count gone
  · have counted := (opened_sublist _).mem made
    rw [course.created, List.mem_range'_1] at counted
    omega

end

theorem begin_creates {σ : Type} (contexts : Contexts σ) (settings : Settings) {s : State}
    (absent : s.live = none) (kept : s.dropped = false) (w : σ) (ask : Ask) :
    ∃ result, .created (s.generation + 1) result ∈
      (transition contexts settings s w (.begin ask)).effects := by
  obtain ⟨now, live, generation, issued, pending, calls, dropped⟩ := s
  dsimp only at absent kept
  subst absent kept
  simp only [transition, step, begin, seekReadiness, ensureContext]
  rcases create : contexts.create w (generation + 1) with ⟨cause | ⟨⟨⟩⟩, made⟩
  · simp [recorded_create create]
  rcases post : contexts.post made (generation + 1) ⟨.warmup, .ping⟩ with ⟨cause | ⟨⟨⟩⟩, posted⟩
  · simp only [recorded_create create, recorded_post post]
    exact ⟨.ok (), List.mem_append_left _ (.head _)⟩
  · obtain ⟨effects, s', w', eq, -⟩ := dispatch_recorded contexts settings
      ⟨now, some ⟨generation + 1, false⟩, generation + 1, issued, pending,
        calls ++ [⟨ask, .admitted⟩], false⟩ posted
      [.created (generation + 1) (.ok ()), .posted (generation + 1) ⟨.warmup, .ping⟩ (.ok ())]
      calls.length .handshake .ping (ask.readiness settings) rfl
    simp [recorded_create create, recorded_post post, State.isReady, eq]

/-! ## Whole runs -/

structure Truthful (past : List Transition) (s : State) : Prop where
  blamed : ∀ (caller : Nat) (ask : Ask) (cause : Failure),
    s.calls[caller]? = some ⟨ask, .finished (.error cause)⟩ → Blame past caller cause
  discarded : ∀ earlier t later generation, past = earlier ++ t :: later →
    .destroyed generation ∈ t.effects →
    t.after.live = none ∧ ∀ u ∈ later, u.after.current? ≠ some generation
  renewed : ∀ earlier t later ask, past = earlier ++ t :: later → t.action = .begin ask →
    t.before.live = none → t.before.dropped = false →
    (∃ result, .created (t.before.generation + 1) result ∈ t.effects) ∧
      ∀ u ∈ earlier, ∀ generation, .destroyed generation ∈ u.effects →
        generation ≤ t.before.generation

/-- In every run, a failed call that waited was told the truth about its context. One whose request
could not be posted has cost its context, whatever its error says, and any other has done nothing to
a context. -/
theorem errors_tell_of_contexts {σ : Type} (contexts : Contexts σ) (settings : Settings)
    (distinct : Function.Injective settings.ids) (w : σ) (actions : List Action) :
    Truthful (trace contexts settings ({}, w) actions)
      (run contexts settings ({}, w) actions).1 := by
  have course := course_of_run contexts settings w actions
  refine ⟨fun caller ask cause => course.blamed distinct, ?_, ?_⟩
  · intro earlier t later generation split destroyed
    rw [split] at course
    refine ⟨course.split.2.torn destroyed, fun u member => ?_⟩
    obtain ⟨first, rest, rfl⟩ := List.append_of_mem member
    rw [← List.cons_append, ← List.append_assoc] at course
    obtain ⟨before, change⟩ := course.split
    refine ((before.extend change).discarded ?_ destroyed).1
    simp
  · intro earlier t later ask split begins absent kept
    obtain ⟨w', performed⟩ := trace_split contexts settings split
    rw [split] at course
    refine ⟨?_, fun u member generation destroyed => (course.split.1.discarded member destroyed).2⟩
    rw [begins] at performed
    rw [performed]
    exact begin_creates contexts settings absent kept w' ask

def overrun : List Action :=
  [.begin (.run "loop" (some ⟨⟨1⟩, ⟨1⟩⟩)), .event 1 (.response ⟨counted.ids 0, .ready⟩), .proceed 0,
    .proceed 0, .begin (.run "wait" none), .proceed 1, .advance ⟨2⟩, .proceed 0, .proceed 0,
    .proceed 1]

theorem errors_tell_of_contexts_overrun : Function.Injective counted.ids ∧
    Truthful (trace willing counted ({}, ()) overrun) (run willing counted ({}, ()) overrun).1 ∧
    (run willing counted ({}, ()) overrun).1.calls.map Call.phase =
      [.finished (.error (.executionTimeout ⟨1⟩)), .finished (.error .resetInterrupted)] :=
  ⟨counted_injective, errors_tell_of_contexts willing counted counted_injective () overrun, rfl⟩

def reluctant : Stage := { script := { posts := some 1 } }

/-- The error of a post that fails is no word about the context, which is destroyed all the same. -/
theorem failed_post_ends_context :
    (run Stage.world.contexts counted ({}, reluctant) [.begin (.ready ⟨1⟩)]).1.phase? 0 =
      some (.finished (.error (.link (.reported "scripted post failure")))) ∧
    (Failure.link (.reported "scripted post failure")).isTerminal = false ∧
    (trace Stage.world.contexts counted ({}, reluctant) [.begin (.ready ⟨1⟩)]).flatMap
      Transition.effects = [.created 1 (.ok ()), .posted 1 ⟨.warmup, .ping⟩ (.ok ()),
        .posted 1 ⟨counted.ids 0, .ping⟩ (.error (.link (.reported "scripted post failure"))),
        .destroyed 1] ∧
    (run Stage.world.contexts counted ({}, reluctant) [.begin (.ready ⟨1⟩)]).1.live = none :=
  ⟨rfl, rfl, rfl, rfl⟩

end Sandbox.Client

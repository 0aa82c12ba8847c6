import Sandbox.Proofs.Client.Removal

namespace Sandbox.Client

def State.reply? (s : State) (record : Record) : Option (Except Failure Reply) :=
  match s.phase? record.caller with
  | some (.waiting wait) => if wait.record record.caller = record then wait.reply else none
  | _ => none

theorem State.reply?_eq_some {s : State} {record : Record} {reply : Except Failure Reply} :
    s.reply? record = some reply ↔ ∃ ask wait, s.calls[record.caller]? = some ⟨ask, .waiting wait⟩ ∧
      wait.record record.caller = record ∧ wait.reply = some reply := by
  rw [reply?, phase?]
  rcases s.calls[record.caller]? with _ | ⟨ask, _ | wait | result | _⟩
  · simp
  · simp
  · by_cases own : wait.record record.caller = record <;> simp [own]
  · simp
  · simp

section
variable {settings : Settings} {past : List Transition} {s s' : State}

theorem Orderly.removals_nodup (orderly : Orderly settings past s) :
    ((removals past).map fun removal => removal.record.id).Nodup := by
  have nodup := (orderly.balanced.map Record.id).nodup_iff.mp orderly.once
  rw [List.map_append] at nodup
  have departed := (List.nodup_append.mp nodup).1
  rwa [← removals_records, List.map_map] at departed

theorem Orderly.not_pending_of_removed (orderly : Orderly settings past s) {removal : Removal}
    (removed : removal ∈ removals past) : removal.record ∉ s.pending := by
  intro held
  have departed : removal.record ∈ departures past :=
    removals_records past ▸ List.mem_map_of_mem removed
  exact orderly.not_pending_of_departed departed _ held rfl

theorem Course.follows (course : Course settings past s)
    (distinct : Function.Injective settings.ids) {removal : Removal}
    (removed : removal ∈ removals past) : ∃ call, s.calls[removal.record.caller]? = some call ∧
      Follows call.ask removal.record removal.outcome call.phase := by
  have orderly := course.orderly distinct
  have known : removal.record ∈ registrations past := by
    rw [orderly.balanced.mem_iff, ← removals_records]
    exact List.mem_append_left _ (List.mem_map_of_mem removed)
  rcases (course.linked distinct).fates _ known with held | ⟨other, left, same, follows⟩
  · exact absurd held (orderly.not_pending_of_removed removed)
  · obtain rfl : other = removal :=
      List.inj_on_of_nodup_map orderly.removals_nodup left removed (congrArg Record.id same)
    exact follows

theorem Removal.reset_of_outcome {removal : Removal}
    (interrupted : removal.outcome = .error .resetInterrupted) : removal.remover = .reset := by
  obtain ⟨⟨id, awaited, caller⟩, remover⟩ := removal
  rcases remover with kind | budget | _
  · cases awaited <;> cases kind <;> simp [outcome, answer] at interrupted
  · cases awaited <;> simp [outcome] at interrupted
  · rfl

end

/-! ## One transition -/

def Returns (past : List Transition) (caller : Nat) (ask : Ask) (wait : Wait) (phase : Phase) :
    Prop :=
  (∃ wait', phase = .waiting wait' ∧ wait'.id = wait.id) ∨ phase = .cancelled ∨
    ∃ removal ∈ removals past, removal.record = wait.record caller ∧
      phase = resolution ask wait.awaited removal.outcome

structure Settles (earlier : List Transition) (t : Transition) : Prop where
  explained : ∀ removal ∈ t.removals, Explained earlier t removal
  sent : ∀ record reply, t.after.reply? record = some reply →
    t.before.reply? record = some reply ∨ t.before.reply? record = none ∧
      ∃ removal ∈ t.removals, removal.record = record ∧ removal.outcome = reply
  returns : ∀ (caller : Nat) (ask : Ask) (wait : Wait),
    t.before.calls[caller]? = some ⟨ask, .waiting wait⟩ →
    ∃ phase, t.after.calls[caller]? = some ⟨ask, phase⟩ ∧
      Returns (earlier ++ [t]) caller ask wait phase
  late : ∀ (caller : Nat) (ask : Ask) (wait : Wait), t.action = .proceed caller →
    t.before.calls[caller]? = some ⟨ask, .waiting wait⟩ → wait.expired = true →
    t.before.record? wait.id = none →
    ∃ removal ∈ removals earlier, removal.record = wait.record caller ∧
      t.after.calls[caller]? = some ⟨ask, resolution ask wait.awaited removal.outcome⟩ ∧
      (∀ budget, removal.remover ≠ .timer budget) ∧
      (removal.outcome = .error .resetInterrupted → removal.remover = .reset)

section
variable {settings : Settings} {past : List Transition} {s : State} {t : Transition}
  {action : Action} {effects : List Effect} {s' : State}

theorem Course.sent (course : Course settings past s) (distinct : Function.Injective settings.ids)
    (change : Change settings s action effects s') {record : Record} {reply : Except Failure Reply}
    (after : s'.reply? record = some reply) :
    s.reply? record = some reply ∨ s.reply? record = none ∧
      ∃ removal ∈ (Transition.mk action s effects s').removals,
        removal.record = record ∧ removal.outcome = reply := by
  obtain ⟨ask, wait, found, own, replied⟩ := State.reply?_eq_some.mp after
  obtain ⟨removal, removed, same, outcome⟩ :=
    ((course.extend change).linked distinct).replied found replied
  obtain rfl : removal.record = record := same.trans own
  rw [removals_append, removals_singleton] at removed
  rcases List.mem_append.mp removed with before | now
  · left
    obtain ⟨call, found', follows⟩ := course.follows distinct before
    cases change.waited found with
    | fresh unreplied unexpired => exact nomatch replied.symm.trans unreplied
    | @before wait' found'' same' budget deadline expired =>
      cases found'.symm.trans found''
      have own' := same'.symm.trans own
      cases follows with
      | told _ replied' =>
        exact State.reply?_eq_some.mpr ⟨_, _, found', own', outcome ▸ replied'⟩
      | runs leads other => exact absurd own' other
  · refine .inr ⟨?_, removal, now, rfl, outcome⟩
    obtain ⟨held, -, -⟩ := (Transition.mem_removals _).mp now
    obtain ⟨call, found', awaits⟩ := (course.linked distinct).awaited removal.record held
    refine Option.eq_none_iff_forall_ne_some.mpr ?_
    intro early before
    obtain ⟨ask', wait', found'', -, replied'⟩ := State.reply?_eq_some.mp before
    cases found'.symm.trans found''
    cases awaits with
    | waiting _ unreplied => exact nomatch replied'.symm.trans unreplied

theorem Course.returns (course : Course settings past s)
    (distinct : Function.Injective settings.ids) (change : Change settings s action effects s')
    {caller : Nat} {ask : Ask} {wait : Wait}
    (found : s.calls[caller]? = some ⟨ask, .waiting wait⟩) :
    ∃ phase, s'.calls[caller]? = some ⟨ask, phase⟩ ∧
      Returns (past ++ [⟨action, s, effects, s'⟩]) caller ask wait phase := by
  have known : caller < s.calls.length := (List.getElem?_eq_some_iff.mp found).choose
  by_cases acts : action.actor? s = some caller
  · cases action with
    | begin ask' => exact absurd (Option.some.inj acts) (Nat.ne_of_gt known)
    | proceed caller' =>
      obtain rfl := Option.some.inj acts
      cases change.of_wait found with
      | waits pending live silent after same => exact ⟨_, after, .inl ⟨_, rfl, same⟩⟩
      | @replied reply pending live silent leaves after =>
        have left : ∃ reply', wait.reply = some reply' ∧ reply' = reply := by
          cases leaves with
          | arrived unexpired replied => exact ⟨_, replied, rfl⟩
          | late expired gone =>
            obtain ⟨reply', replied⟩ := (course.linked distinct).reply_of_gone found gone
            exact ⟨reply', replied, by rw [replied]; rfl⟩
        obtain ⟨_, replied, rfl⟩ := left
        obtain ⟨removal, removed, same, outcome⟩ := (course.linked distinct).replied found replied
        refine ⟨_, after, .inr (.inr ⟨removal, ?_, same, outcome ▸ rfl⟩)⟩
        rw [removals_append]
        exact List.mem_append_left _ removed
      | @timed record held expired left torn after =>
        obtain ⟨rfl, pending⟩ :=
          (course.linked distinct).own_record (course.orderly distinct) found held
        refine ⟨_, after, .inr (.inr ⟨_, ?_, rfl, rfl⟩)⟩
        rw [removals_append, removals_singleton]
        refine List.mem_append_right _ ((Transition.mem_removals _).mpr ⟨pending, ?_, ?_⟩)
        · exact fun still => left _ still rfl
        · simp [Transition.remover, Wait.record, State.phase?, found]
    | cancel caller' =>
      obtain rfl := Option.some.inj acts
      cases change with
      | idle => exact ⟨_, found, .inl ⟨wait, rfl, rfl⟩⟩
      | cancelled found' active =>
        refine ⟨.cancelled, ?_, .inr (.inl rfl)⟩
        rw [s.calls_setPhase, if_pos rfl, found]
        rfl
    | _ => cases acts
  · rcases change.untouched acts with same | ⟨record, held, left, own, reply, told⟩
    · exact ⟨_, same.trans found, .inl ⟨wait, rfl, rfl⟩⟩
    · rw [told, found]
      exact ⟨_, rfl, .inl ⟨_, rfl, rfl⟩⟩

theorem Course.unregistered {earlier later : List Transition}
    (course : Course settings (earlier ++ t :: later) s)
    (distinct : Function.Injective settings.ids) {generation : Nat} {request : Request}
    {cause : Failure} (failed : .posted generation request (.error cause) ∈ t.effects)
    (other : request ≠ ⟨.warmup, .ping⟩) :
    ∀ record ∈ registrations (earlier ++ t :: later), record.id ≠ request.id := by
  obtain ⟨before, change⟩ := course.split
  have unposted := change.post_failed failed
  rcases unposted.unregistered with warmup | ⟨id, issued⟩
  · exact absurd warmup other
  have sublist : t.after.pending.Sublist t.before.pending := by
    rcases unposted.emptied with empty | ⟨-, same⟩
    · rw [empty]
      exact List.nil_sublist _
    · exact same ▸ .refl _
  rw [List.append_cons] at course
  obtain ⟨s', upto, -, from_then⟩ := course.registered_from
  obtain rfl := upto.after_last
  intro record registered same
  rw [registrations_append] at registered
  rcases List.mem_append.mp registered with old | new
  · exact (before.orderly distinct).fresh distinct old (same.trans id)
  · rw [← List.singleton_append, registrations_append, registrations_singleton,
      Transition.registered_eq_nil sublist, List.nil_append] at new
    obtain ⟨n, later, eq⟩ := from_then record new
    have earliest : n = t.before.issued := distinct (eq.symm.trans (same.trans id))
    have next : t.after.issued = t.before.issued + 1 := issued
    omega

theorem proceed_late {σ : Type} (contexts : Contexts σ) {w : σ} {caller : Nat} {ask : Ask}
    {wait : Wait} {reply : Except Failure Reply}
    (found : s.calls[caller]? = some ⟨ask, .waiting wait⟩) (expired : wait.expired = true)
    (gone : s.record? wait.id = none) (replied : wait.reply = some reply) :
    (step contexts settings (s, w) (.proceed caller)).1 =
      s.setPhase caller (resolution ask wait.awaited reply) := by
  simp only [step, proceed, found, expired, if_true, expire, gone, replied, Option.getD_some]
  exact takeReply_eq s caller ask wait.awaited reply

theorem Course.late (course : Course settings past s) (distinct : Function.Injective settings.ids)
    {σ : Type} (contexts : Contexts σ) (w : σ) {caller : Nat} {ask : Ask} {wait : Wait}
    (found : s.calls[caller]? = some ⟨ask, .waiting wait⟩) (expired : wait.expired = true)
    (gone : s.record? wait.id = none) :
    ∃ removal ∈ removals past, removal.record = wait.record caller ∧
      (step contexts settings (s, w) (.proceed caller)).1.calls[caller]? =
        some ⟨ask, resolution ask wait.awaited removal.outcome⟩ ∧
      (∀ budget, removal.remover ≠ .timer budget) ∧
      (removal.outcome = .error .resetInterrupted → removal.remover = .reset) := by
  obtain ⟨reply, replied⟩ := (course.linked distinct).reply_of_gone found gone
  obtain ⟨removal, removed, same, rfl⟩ := (course.linked distinct).replied found replied
  refine ⟨removal, removed, same, ?_, ?_, Removal.reset_of_outcome⟩
  · rw [proceed_late contexts found expired gone replied, s.calls_setPhase, if_pos rfl, found]
    rfl
  · intro budget timed
    obtain ⟨record, remover⟩ := removal
    dsimp only at same timed
    subst same timed
    obtain ⟨ask', result, ended⟩ := course.timed distinct removed
    exact nomatch found.symm.trans ended

end

/-! ## Whole runs -/

structure Settled (past : List Transition) (s : State) : Prop where
  registered_once : ((registrations past).map Record.id).Nodup
  removed_once : ((removals past).map fun removal => removal.record.id).Nodup
  removed_for_good : List.Perm (registrations past) ((removals past).map Removal.record ++ s.pending)
  settles : ∀ earlier t later, past = earlier ++ t :: later → Settles earlier t
  outcomes : ∀ record ∈ registrations past, ∀ (ask : Ask)
    (result : Except Failure (Option RunOutput)),
    s.calls[record.caller]? = some ⟨ask, .finished result⟩ →
    ∃ removal ∈ removals past, removal.record = record ∧
      (resolution ask record.awaited removal.outcome = .finished result ∨
        resolution ask record.awaited removal.outcome = .admitted)
  unposted : ∀ t ∈ past, ∀ generation request cause,
    .posted generation request (.error cause) ∈ t.effects →
    (∃ caller, t.action.actor? t.before = some caller ∧
      t.after.phase? caller = some (.finished (.error cause))) ∧
    (request = ⟨.warmup, .ping⟩ ∨ ∀ record ∈ registrations past, record.id ≠ request.id)

/-- In every run each id enters the table once, leaves it at most once and never comes back. The
outcome that its call gets is that of whoever removed it. -/
theorem first_remover_wins {σ : Type} (contexts : Contexts σ) (settings : Settings)
    (distinct : Function.Injective settings.ids) (w : σ) (actions : List Action) :
    Settled (trace contexts settings ({}, w) actions)
      (run contexts settings ({}, w) actions).1 := by
  have course := course_of_run contexts settings w actions
  have orderly := course.orderly distinct
  constructor
  · exact orderly.once
  · exact orderly.removals_nodup
  · rw [removals_records]
    exact orderly.balanced
  · intro earlier t later split
    obtain ⟨w', performed⟩ := trace_split contexts settings split
    rw [split] at course
    obtain ⟨before, change⟩ := course.split
    refine ⟨fun removal => before.explained distinct change, fun record reply => ?_, ?_, ?_⟩
    · exact before.sent distinct change
    · intro caller ask wait found
      exact before.returns distinct change found
    · intro caller ask wait acts found expired gone
      have late := before.late distinct contexts w' found expired gone
      rwa [← acts, ← transition_after, ← performed] at late
  · intro record registered ask result ended
    rcases (course.linked distinct).fates record registered with
      held | ⟨removal, removed, same, call, found, follows⟩
    · obtain ⟨call, found, awaits⟩ := (course.linked distinct).awaited record held
      cases found.symm.trans ended
      cases awaits
    · cases found.symm.trans ended
      cases follows with
      | concluded leads => exact ⟨removal, removed, same, .inl leads⟩
      | ended leads => exact ⟨removal, removed, same, .inr leads⟩
  · intro t member generation request cause failed
    obtain ⟨earlier, later, split⟩ := List.append_of_mem member
    rw [split] at course ⊢
    refine ⟨(course.split.2.post_failed failed).failed, ?_⟩
    by_cases warmup : request = ⟨.warmup, .ping⟩
    · exact .inl warmup
    · exact .inr (course.unregistered distinct failed warmup)

def race : List Action :=
  [.begin (.ready ⟨1⟩), .advance ⟨2⟩, .proceed 0, .event 1 (.response ⟨counted.ids 0, .ready⟩),
    .proceed 0]

theorem first_remover_wins_race : Function.Injective counted.ids ∧
    Settled (trace willing counted ({}, ()) race) (run willing counted ({}, ()) race).1 ∧
    (run willing counted ({}, ()) race).1.phase? 0 = some (.finished (.ok none)) :=
  ⟨counted_injective, first_remover_wins willing counted counted_injective () race, rfl⟩

end Sandbox.Client

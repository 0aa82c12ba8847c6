import Sandbox.Proofs.Client.Deadline

namespace Sandbox.Client

/-! ## Phases -/

/-- The call waits on this id, in its readiness phase for a handshake and in its execution phase for
a run. -/
def State.InPhase (s : State) (caller : Nat) (awaited : Awaited) (id : CorrelationId) : Prop :=
  ∃ ask wait, s.calls[caller]? = some ⟨ask, .waiting wait⟩ ∧
    wait.record caller = ⟨id, awaited, caller⟩

/-- The call has posted its request of this kind under this id: a ping for a handshake, its own
snippet for a run. -/
def Requested (past : List Transition) (s : State) (caller : Nat) (awaited : Awaited)
    (id : CorrelationId) : Prop :=
  ∃ t ∈ past, t.action.actor? t.before = some caller ∧ ∃ ask phase kind generation,
    s.calls[caller]? = some ⟨ask, phase⟩ ∧ ask.request? awaited = some kind ∧
      .posted generation ⟨id, kind⟩ (.ok ()) ∈ t.effects

inductive Reply.Fits : Awaited → Reply → Prop
  | ready : Fits .handshake .ready
  | output (streams : RunOutput) : Fits .run (.output streams)

/-- What a call can find in place of its record: what an answer means to a call in its phase, or
that its context is gone. -/
inductive Meant (awaited : Awaited) : Except Failure Reply → Prop
  | answer (kind : Response.Kind) : Meant awaited (answer awaited kind)
  | interrupted : Meant awaited (.error .resetInterrupted)

theorem Meant.fits {awaited : Awaited} {reply : Reply} (meant : Meant awaited (.ok reply)) :
    reply.Fits awaited := by
  generalize eq : Except.ok reply = received at meant
  cases meant with
  | answer kind =>
    cases awaited <;> cases kind <;> cases eq
    · exact .ready
    · exact .output _
  | interrupted => cases eq

theorem Meant.resolution_ne {ask : Ask} {awaited : Awaited} {reply : Except Failure Reply}
    (meant : Meant awaited reply) :
    resolution ask awaited reply ≠ .finished (.error (.link .readyReplyToRun)) := by
  cases meant with
  | answer kind => cases awaited <;> cases kind <;> cases ask <;> exact nofun
  | interrupted => cases awaited <;> exact nofun

/-! ## Records and the calls that wait -/

def State.Owned (s : State) : Prop :=
  ∀ record ∈ s.pending, ∃ call, s.calls[record.caller]? = some call ∧ Awaits record call.phase

section
variable {settings : Settings} {s s' : State} {action : Action} {effects : List Effect}
  {record : Record}

theorem Awaits.ne_admitted {phase : Phase} (awaits : Awaits record phase) : phase ≠ .admitted := by
  cases awaits <;> exact nofun

theorem Awaits.not_replied {wait : Wait} {reply : Except Failure Reply}
    (awaits : Awaits record (.waiting wait)) (held : record ∈ s.pending) :
    ¬Replied s wait reply := by
  cases awaits with
  | waiting own unreplied =>
    intro replied
    cases replied with
    | arrived unexpired replied => exact nomatch replied.symm.trans unreplied
    | late expired gone =>
      simp only [State.record?, List.find?_eq_none] at gone
      have id : wait.id = record.id := congrArg Record.id own
      exact absurd id.symm (by simpa using gone record held)

theorem Change.goes_on {call : Call}
    (change : Change settings s (.proceed record.caller) effects s')
    (found : s.calls[record.caller]? = some call) (awaits : Awaits record call.phase)
    (held : record ∈ s.pending) (stays : record ∈ s'.pending) :
    ∃ call', s'.calls[record.caller]? = some call' ∧ Awaits record call'.phase := by
  cases change with
  | idle => exact ⟨call, found, awaits⟩
  | refused admitted unready =>
    cases found.symm.trans admitted
    exact absurd rfl awaits.ne_admitted
  | sent admitted ready dispatch =>
    cases found.symm.trans admitted
    exact absurd rfl awaits.ne_admitted
  | noticed waits unexpired unreplied due =>
    cases found.symm.trans waits
    refine ⟨_, setPhase_found found _, ?_⟩
    cases awaits with
    | waiting own unreplied => exact .waiting own unreplied
  | resolved waits replied =>
    cases found.symm.trans waits
    exact absurd replied (awaits.not_replied held)
  | @lapsed _ ask wait other waits expired held' handshake =>
    cases found.symm.trans waits
    cases awaits with
    | waiting own unreplied =>
      have left : record.id ≠ wait.id := by simpa using (List.mem_filter.mp stays).2
      exact absurd (congrArg Record.id own).symm left
  | overran waits expired held' run =>
    rw [State.finish, State.setPhase, cleared_pending] at stays
    cases stays

theorem Change.keeps_awaited {call : Call} (change : Change settings s action effects s')
    (found : s.calls[record.caller]? = some call) (awaits : Awaits record call.phase)
    (acts : action.actor? s = some record.caller) (held : record ∈ s.pending)
    (stays : record ∈ s'.pending) :
    ∃ call', s'.calls[record.caller]? = some call' ∧ Awaits record call'.phase := by
  cases action with
  | begin ask =>
    have known : record.caller < s.calls.length := (List.getElem?_eq_some_iff.mp found).choose
    exact absurd (Option.some.inj acts) (Nat.ne_of_gt known)
  | proceed caller =>
    obtain rfl := Option.some.inj acts
    exact change.goes_on found awaits held stays
  | cancel caller =>
    obtain rfl := Option.some.inj acts
    cases change with
    | idle => exact ⟨call, found, awaits⟩
    | cancelled found' active => exact ⟨_, setPhase_found found _, .cancelled⟩
  | _ => cases acts

theorem Dispatch.awaited {provided : State} {caller : Nat} {awaited : Awaited} {kind : Request.Kind}
    {budget : Duration} {ask : Ask}
    (dispatch : Dispatch settings provided caller awaited kind budget effects s')
    (found : provided.calls[caller]? = some ⟨ask, .admitted⟩) (held : record ∈ s'.pending)
    (absent : record ∉ provided.pending) :
    ∃ call, s'.calls[record.caller]? = some call ∧ Awaits record call.phase := by
  cases dispatch with
  | registered live =>
    rcases List.mem_cons.mp held with rfl | old
    · have issued : { provided with issued := provided.issued + 1, pending :=
          ⟨settings.ids provided.issued, awaited, caller⟩ :: provided.pending }.calls[caller]? =
          some ⟨ask, .admitted⟩ := found
      exact ⟨_, setPhase_found issued _, .waiting rfl rfl⟩
    · exact absurd old absent
  | unposted live cause =>
    rw [State.finish, State.setPhase, cleared_pending] at held
    cases held

theorem Change.registers_awaited (change : Change settings s action effects s')
    (held : record ∈ s'.pending) (absent : record ∉ s.pending) :
    ∃ call, s'.calls[record.caller]? = some call ∧ Awaits record call.phase := by
  cases change.table with
  | reduced shorter issued => exact absurd (shorter.mem held) absent
  | added dispatches id issued =>
    obtain ⟨call, kind, found, request, posted⟩ := dispatches.asked
    cases change with
    | sent found' ready dispatch => exact dispatch.awaited found' held absent
    | @pinged ask _ _ _ _ provision unready dispatch =>
      obtain ⟨pending, -, calls⟩ := provision.table
      have opened := s.calls_opened ask s.calls.length
      rw [if_pos rfl, ← calls] at opened
      refine dispatch.awaited opened held ?_
      rw [pending]
      exact absent
    | reset | crashed | dropped | failed | overran => exact (not_posted_of_teardown posted).elim
    | _ => simp at posted

theorem Change.owned (change : Change settings s action effects s') (owned : s.Owned) :
    s'.Owned := by
  intro record stays
  by_cases held : record ∈ s.pending
  · obtain ⟨call, found, awaits⟩ := owned record held
    by_cases acts : action.actor? s = some record.caller
    · exact change.keeps_awaited found awaits acts held stays
    rcases change.untouched acts with same | ⟨other, held', left, own, reply, told⟩
    · exact ⟨call, same.trans found, awaits⟩
    · obtain ⟨call', found', awaits'⟩ := owned other held'
      rw [own] at found'
      cases found.symm.trans found'
      rw [found] at told
      refine ⟨_, told, ?_⟩
      obtain ⟨ask, phase⟩ := call
      cases awaits with
      | @waiting wait own' unreplied =>
        cases awaits' with
        | waiting own'' unreplied' =>
          rw [own] at own''
          exact absurd stays (own'.symm.trans own'' ▸ left)
      | cancelled => exact .cancelled
  · exact change.registers_awaited stays held

end

/-! ## What calls find -/

def Phase.Suited (phase : Phase) : Prop :=
  ∀ wait, phase = .waiting wait → ∀ reply, wait.reply = some reply → Meant wait.awaited reply

def State.Suited (s : State) : Prop :=
  ∀ (caller : Nat) (call : Call), s.calls[caller]? = some call → call.phase.Suited

theorem Phase.Suited.of_resolution (ask : Ask) (awaited : Awaited) (reply : Except Failure Reply) :
    (resolution ask awaited reply).Suited :=
  fun _ waits => absurd waits resolution_ne_waiting

theorem Phase.Suited.given {phase : Phase} (suited : phase.Suited) {reply : Except Failure Reply}
    (meant : ∀ wait, phase = .waiting wait → Meant wait.awaited reply) :
    (phase.given reply).Suited := by
  cases phase with
  | waiting wait =>
    rintro _ ⟨⟩ _ ⟨⟩
    exact meant wait rfl
  | _ => exact suited

namespace State.Suited

variable {s : State} (suited : s.Suited)

include suited in
theorem setPhase {phase : Phase} (caller : Nat) (fits : phase.Suited) :
    (s.setPhase caller phase).Suited := by
  intro i call found
  rw [s.calls_setPhase] at found
  split at found
  · obtain ⟨_, _, rfl⟩ := Option.map_eq_some_iff.mp found
    exact fits
  · exact suited i call found

include suited in
theorem opened (ask : Ask) : (s.opened ask).Suited := by
  intro i call found
  rw [s.calls_opened] at found
  split at found
  · cases found
    exact nofun
  · exact suited i call found

include suited in
theorem settle {caller : Nat} {reply : Except Failure Reply}
    (meant : ∀ ask wait, s.calls[caller]? = some ⟨ask, .waiting wait⟩ → Meant wait.awaited reply) :
    (s.settle caller reply).Suited := by
  intro i call found
  rw [s.calls_settle] at found
  split at found
  · rename_i own
    subst own
    obtain ⟨⟨ask, phase⟩, before, rfl⟩ := Option.map_eq_some_iff.mp found
    refine (suited i _ before).given ?_
    rintro wait rfl
    exact meant ask wait before
  · exact suited i call found

include suited in
theorem cleared : s.cleared.Suited := by
  intro i call found
  rw [s.calls_cleared] at found
  split at found
  · obtain ⟨call, before, rfl⟩ := Option.map_eq_some_iff.mp found
    exact (suited i call before).given fun _ _ => .interrupted
  · exact suited i call found

end State.Suited

section
variable {settings : Settings} {s s' : State} {action : Action} {effects : List Effect}

theorem State.Owned.meant (owned : s.Owned) {record : Record} (held : record ∈ s.pending)
    (kind : Response.Kind) : ∀ ask wait, s.calls[record.caller]? = some ⟨ask, .waiting wait⟩ →
      Meant wait.awaited (answer record.awaited kind) := by
  intro ask wait found
  obtain ⟨call, found', awaits⟩ := owned record held
  cases found.symm.trans found'
  cases awaits with
  | waiting own unreplied =>
    rw [← own]
    exact .answer kind

theorem Dispatch.suited {provided : State} {caller : Nat} {awaited : Awaited}
    {kind : Request.Kind} {budget : Duration}
    (dispatch : Dispatch settings provided caller awaited kind budget effects s')
    (suited : provided.Suited) : s'.Suited := by
  cases dispatch with
  | registered live =>
    refine State.Suited.setPhase (s := { provided with issued := _, pending := _ }) suited caller ?_
    rintro _ ⟨⟩
    exact nofun
  | unposted live cause =>
    have cleared := State.Suited.cleared
      (s := { provided with issued := provided.issued + 1 }) suited
    exact cleared.setPhase caller nofun

theorem Change.suited (change : Change settings s action effects s') (owned : s.Owned)
    (suited : s.Suited) : s'.Suited := by
  cases change with
  | idle | advanced => exact suited
  | cancelled | refused => exact suited.setPhase _ nofun
  | reset | crashed | dropped => exact suited.cleared
  | @answered generation response record current found survives =>
    have held := List.mem_of_find?_eq_some found
    exact State.Suited.settle (s := { s.removeRecord response.id with live := _ }) suited
      (owned.meant held response.kind)
  | @failed generation id message record current found handshake =>
    have meant := owned.meant (List.mem_of_find?_eq_some found) (.failure message)
    rw [handshake] at meant
    have settled := State.Suited.settle (s := s.removeRecord id) suited meant
    exact settled.cleared
  | sent found ready dispatch => exact dispatch.suited suited
  | @noticed caller ask wait found unexpired unreplied due =>
    refine suited.setPhase caller ?_
    rintro _ ⟨⟩ reply replied
    exact nomatch replied.symm.trans unreplied
  | resolved found replied => exact suited.setPhase _ (.of_resolution _ _ _)
  | @lapsed caller ask wait record found expired held handshake =>
    exact State.Suited.setPhase (s := s.removeRecord wait.id) suited caller nofun
  | @overran caller ask wait record found expired held run =>
    have cleared := State.Suited.cleared (s := s.removeRecord wait.id) suited
    exact cleared.setPhase caller nofun
  | @uncreated ask absent cause | @unwarmed ask absent cause =>
    have opened := suited.opened ask
    exact State.Suited.setPhase (s := { s.opened ask with generation := _ }) opened _ nofun
  | @entered ask ready => exact (suited.opened ask).setPhase _ (.of_resolution _ _ _)
  | @pinged ask _ _ provided _ provision unready dispatch =>
    have calls : provided.calls = (s.opened ask).calls := provision.table.2.2
    refine dispatch.suited ?_
    rw [State.Suited, calls]
    exact suited.opened ask

theorem Course.owned {past : List Transition} (course : Course settings past s) : s.Owned := by
  induction course with
  | start => exact nofun
  | extend earlier change ih => exact change.owned ih

theorem Course.suited {past : List Transition} (course : Course settings past s) : s.Suited := by
  induction course with
  | start => exact nofun
  | extend earlier change ih => exact change.suited earlier.owned ih

end

/-! ## What calls go by -/

def Transition.Takes (t : Transition) (caller : Nat) (awaited : Awaited)
    (reply : Except Failure Reply) : Prop :=
  t.action = .proceed caller ∧ ∃ ask wait, t.before.calls[caller]? = some ⟨ask, .waiting wait⟩ ∧
    wait.awaited = awaited ∧ Replied t.before wait reply

section
variable {settings : Settings} {past : List Transition} {s : State} {caller : Nat} {ask : Ask}
  {wait : Wait} {reply : Except Failure Reply}

theorem State.Suited.replied (suited : s.Suited)
    (found : s.calls[caller]? = some ⟨ask, .waiting wait⟩) (replied : Replied s wait reply) :
    Meant wait.awaited reply := by
  have told := suited caller _ found wait rfl
  cases replied with
  | arrived unexpired replied => exact told _ replied
  | late expired gone =>
    cases replied : wait.reply with
    | none => exact .interrupted
    | some reply => exact told reply replied

theorem proceed_replied {σ : Type} (contexts : Contexts σ) (w : σ)
    (found : s.calls[caller]? = some ⟨ask, .waiting wait⟩) (replied : Replied s wait reply) :
    (step contexts settings (s, w) (.proceed caller)).1 =
      takeReply s caller ask wait.awaited reply := by
  simp only [step, proceed, found]
  cases replied with
  | arrived unexpired replied => simp [unexpired, replied]
  | late expired gone => simp [expired, expire, gone]

theorem Course.requested (course : Course settings past s)
    (found : s.calls[caller]? = some ⟨ask, .waiting wait⟩) :
    Requested past s caller wait.awaited wait.id := by
  induction course generalizing wait with
  | start => simp at found
  | @extend past s s' action effects earlier change ih =>
    cases change.started found with
    | now starts =>
      obtain ⟨generation, dispatches⟩ := starts.dispatches
      obtain ⟨call, kind, found', request, posted⟩ := dispatches.asked
      cases found.symm.trans found'
      exact ⟨_, List.mem_append_right _ (List.mem_singleton_self _), starts.acts, _, _, kind,
        generation, found, request, posted⟩
    | @before wait' found' same budget deadline =>
      obtain ⟨t, member, acts, ask', phase, kind, generation, found'', request, posted⟩ := ih found'
      cases found'.symm.trans found''
      rw [show wait.awaited = _ from congrArg Record.awaited same,
        show wait.id = _ from congrArg Record.id same]
      exact ⟨t, List.mem_append_left _ member, acts, _, _, kind, generation, found, request, posted⟩

theorem Course.unreported (course : Course settings past s)
    (found : s.calls[caller]? = some ⟨ask, .finished (.error (.link .readyReplyToRun))⟩) :
    Relayed past caller (.link .readyReplyToRun) := by
  obtain ⟨earlier, ⟨action, s, effects, s'⟩, later, rfl, acts, unfinished, after⟩ :=
    course.concluded found
  obtain ⟨before, change⟩ := course.split
  dsimp only at acts unfinished after before change
  rcases change.turn acts with rfl | ⟨ask', phase, after', turn⟩
  · exact absurd after unfinished
  cases after.symm.trans after'
  generalize eq : Phase.finished (.error (.link .readyReplyToRun)) = phase at turn
  cases turn with
  | failed admits member failure =>
    cases eq
    exact ⟨⟨action, s, effects, s'⟩, by simp, acts, phase?_of_found after, _, member, failure⟩
  | entered admits => cases ask <;> cases eq
  | replied waits replied =>
    exact absurd eq.symm (before.suited.replied waits replied).resolution_ne
  | @timed wait record waits expired held =>
    obtain ⟨awaited, id, budget, deadline, reply, expired⟩ := wait
    cases awaited <;> cases eq
  | _ => cases eq

end

/-! ## Whole runs -/

/-- Whatever contexts answer, to whichever id: the kind of each record is that of the phase of the
call that waits on its id, and no call finds a reply of the other kind. -/
structure Fitting (settings : Settings) (past : List Transition) (s : State) : Prop where
  owned : ∀ record ∈ s.pending, s.InPhase record.caller record.awaited record.id ∨
    s.phase? record.caller = some .cancelled
  kinds : Function.Injective settings.ids → ∀ record ∈ s.pending, ∀ caller,
    (∃ awaited, s.InPhase caller awaited record.id) → record.caller = caller ∧
      ∀ awaited, record.awaited = awaited ↔ s.InPhase caller awaited record.id
  requested : ∀ caller awaited id, s.InPhase caller awaited id → Requested past s caller awaited id
  received : ∀ (caller : Nat) (ask : Ask) (wait : Wait) (reply : Reply),
    s.calls[caller]? = some ⟨ask, .waiting wait⟩ → wait.reply = some (.ok reply) →
      reply.Fits wait.awaited
  taken : ∀ t ∈ past, ∀ caller awaited reply, t.Takes caller awaited reply →
    (∃ ask, t.after = takeReply t.before caller ask awaited reply) ∧
      ∀ value, reply = .ok value → value.Fits awaited
  unreached : ∀ t ∈ past, ∀ caller, ¬t.Takes caller .run (.ok .ready)
  unreported : ∀ (caller : Nat) (ask : Ask),
    s.calls[caller]? = some ⟨ask, .finished (.error (.link .readyReplyToRun))⟩ →
      Relayed past caller (.link .readyReplyToRun)

theorem trace_takes {σ : Type} (contexts : Contexts σ) (settings : Settings) {w : σ}
    {actions : List Action} {t : Transition} {caller : Nat} {awaited : Awaited}
    {reply : Except Failure Reply} (member : t ∈ trace contexts settings ({}, w) actions)
    (takes : t.Takes caller awaited reply) : Meant awaited reply ∧
      ∃ ask, t.after = takeReply t.before caller ask awaited reply := by
  obtain ⟨acts, ask, wait, found, rfl, replied⟩ := takes
  obtain ⟨earlier, later, split⟩ := List.append_of_mem member
  have course := course_of_run contexts settings w actions
  rw [split] at course
  obtain ⟨before, -⟩ := course.split
  refine ⟨before.suited.replied found replied, ask, ?_⟩
  obtain ⟨w', performed⟩ := trace_split contexts settings split
  have after := congrArg Transition.after performed
  rw [transition_after, acts, proceed_replied contexts w' found replied] at after
  exact after

theorem replies_fit_calls {σ : Type} (contexts : Contexts σ) (settings : Settings) (w : σ)
    (actions : List Action) : Fitting settings (trace contexts settings ({}, w) actions)
      (run contexts settings ({}, w) actions).1 := by
  have course := course_of_run contexts settings w actions
  constructor
  case owned =>
    intro record held
    obtain ⟨⟨ask, phase⟩, found, awaits⟩ := course.owned record held
    cases awaits with
    | @waiting wait own unreplied => exact .inl ⟨ask, wait, found, own⟩
    | cancelled => exact .inr (phase?_of_found found)
  case kinds =>
    rintro distinct record held caller ⟨awaited, ask, wait, found, own⟩
    have orderly := course.orderly distinct
    have known := (course.linked distinct).waits caller ask wait found
    obtain rfl : record = wait.record caller :=
      orderly.eq_of_id (orderly.pending_registered held) known (congrArg Record.id own).symm
    refine ⟨rfl, fun kind => ⟨?_, ?_⟩⟩
    · rintro rfl
      exact ⟨ask, wait, found, rfl⟩
    · rintro ⟨ask', wait', found', own'⟩
      cases found.symm.trans found'
      exact congrArg Record.awaited own'
  case requested =>
    rintro caller awaited id ⟨ask, wait, found, own⟩
    cases own
    exact course.requested found
  case received =>
    intro caller ask wait reply found replied
    exact (course.suited caller _ found wait rfl _ replied).fits
  case taken =>
    intro t member caller awaited reply takes
    obtain ⟨meant, performed⟩ := trace_takes contexts settings member takes
    refine ⟨performed, ?_⟩
    rintro value rfl
    exact meant.fits
  case unreached =>
    intro t member caller takes
    cases (trace_takes contexts settings member takes).1.fits
  case unreported => exact fun caller ask found => course.unreported found

def impostor : List Action :=
  [.begin (.ready ⟨1⟩), .event 1 (.response ⟨counted.ids 0, .ready⟩), .begin (.run "code" none),
    .proceed 1, .event 1 (.response ⟨counted.ids 1, .ready⟩), .proceed 1]

theorem replies_fit_calls_impostor : Function.Injective counted.ids ∧
    Fitting counted (trace willing counted ({}, ()) impostor)
      (run willing counted ({}, ()) impostor).1 ∧
    (run willing counted ({}, ()) impostor).1.phase? 1 =
      some (.finished (.error (.link (.mismatched "Ready" .run)))) :=
  ⟨counted_injective, replies_fit_calls willing counted () impostor, rfl⟩

end Sandbox.Client

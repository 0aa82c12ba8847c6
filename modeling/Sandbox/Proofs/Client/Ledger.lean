import Sandbox.Proofs.Client.Table

namespace Sandbox.Client

/-! ## Removals -/

/-- What takes a record out of the table: an answer of its context, the timer of its own call, or
the end of its context. -/
inductive Remover
  | response (kind : Response.Kind)
  | timer (budget : Duration)
  | reset

structure Removal where
  record : Record
  remover : Remover

def Removal.outcome (removal : Removal) : Except Failure Reply :=
  match removal.remover with
  | .response kind => answer removal.record.awaited kind
  | .timer budget => .error (match removal.record.awaited with
    | .handshake => .initTimeout budget
    | .run => .executionTimeout budget)
  | .reset => .error .resetInterrupted

def Wait.record (wait : Wait) (caller : Nat) : Record := ⟨wait.id, wait.awaited, caller⟩

namespace Transition

variable (t : Transition)

def remover (record : Record) : Remover :=
  match t.action with
  | .event _ (.response response) =>
    if response.id = record.id then .response response.kind else .reset
  | .proceed caller => match t.before.phase? record.caller with
    | some (.waiting wait) => if caller = record.caller then .timer wait.budget else .reset
    | _ => .reset
  | _ => .reset

def removals : List Removal := t.removed.map fun record => ⟨record, t.remover record⟩

theorem mem_removals {removal : Removal} : removal ∈ t.removals ↔
    removal.record ∈ t.before.pending ∧ removal.record ∉ t.after.pending ∧
      t.remover removal.record = removal.remover := by
  constructor
  · intro member
    obtain ⟨record, gone, rfl⟩ := List.mem_map.mp member
    obtain ⟨held, left⟩ := List.mem_filter.mp gone
    exact ⟨held, by simpa using left, rfl⟩
  · rintro ⟨held, left, remover⟩
    refine List.mem_map.mpr ⟨removal.record, List.mem_filter.mpr ⟨held, by simpa using left⟩, ?_⟩
    rw [remover]

end Transition

def removals (past : List Transition) : List Removal := past.flatMap Transition.removals

@[simp] theorem removals_append (past more : List Transition) :
    removals (past ++ more) = removals past ++ removals more :=
  List.flatMap_append

@[simp] theorem removals_singleton (t : Transition) : removals [t] = t.removals :=
  List.flatMap_singleton _ _

theorem removals_records (past : List Transition) :
    (removals past).map Removal.record = departures past := by
  induction past with
  | nil => rfl
  | cons t rest ih =>
    change (t.removals ++ removals rest).map Removal.record = t.removed ++ departures rest
    rw [List.map_append, ih, Transition.removals, List.map_map]
    congr 1
    exact List.map_id _

/-! ## Calls and their records -/

theorem mem_of_record? {s : State} {id : CorrelationId} {record : Record}
    (found : s.record? id = some record) : record ∈ s.pending ∧ record.id = id :=
  ⟨List.mem_of_find?_eq_some found, by simpa using List.find?_some found⟩

inductive Awaits (record : Record) : Phase → Prop
  | waiting {wait : Wait} (own : wait.record record.caller = record)
    (unreplied : wait.reply = none) : Awaits record (.waiting wait)
  | cancelled : Awaits record .cancelled

inductive Follows (ask : Ask) (record : Record) (outcome : Except Failure Reply) : Phase → Prop
  | told {wait : Wait} (own : wait.record record.caller = record)
    (replied : wait.reply = some outcome) : Follows ask record outcome (.waiting wait)
  | concluded {result : Except Failure (Option RunOutput)}
    (leads : resolution ask record.awaited outcome = .finished result) :
    Follows ask record outcome (.finished result)
  | admitted (leads : resolution ask record.awaited outcome = .admitted) :
    Follows ask record outcome .admitted
  | runs {wait : Wait} (leads : resolution ask record.awaited outcome = .admitted)
    (other : wait.record record.caller ≠ record) : Follows ask record outcome (.waiting wait)
  | ended {result : Except Failure (Option RunOutput)}
    (leads : resolution ask record.awaited outcome = .admitted) :
    Follows ask record outcome (.finished result)
  | cancelled : Follows ask record outcome .cancelled

/-- Every record is in the table with its call waiting for it, or has left it with an outcome that
its call goes by. -/
structure Linked (known : List Record) (gone : List Removal) (s : State) : Prop where
  callers : (s.pending.map Record.caller).Nodup
  awaited : ∀ record ∈ s.pending, ∃ call, s.calls[record.caller]? = some call ∧
    Awaits record call.phase
  waits : ∀ (caller : Nat) (ask : Ask) (wait : Wait), s.calls[caller]? = some ⟨ask, .waiting wait⟩ →
    wait.record caller ∈ known
  fates : ∀ record ∈ known, record ∈ s.pending ∨ ∃ removal ∈ gone, removal.record = record ∧
    ∃ call, s.calls[record.caller]? = some call ∧
      Follows call.ask record removal.outcome call.phase

theorem resolution_cases (ask : Ask) (awaited : Awaited) (reply : Except Failure Reply) :
    resolution ask awaited reply = .admitted ∨
      ∃ result, resolution ask awaited reply = .finished result := by
  rcases awaited with _ | _ <;> rcases reply with cause | _ | streams <;> cases ask <;>
    simp [resolution]

theorem Awaits.given {record : Record} {phase : Phase} (awaits : Awaits record phase)
    {ask : Ask} {outcome : Except Failure Reply} :
    Follows ask record outcome (phase.given outcome) := by
  cases awaits with
  | waiting own unreplied => exact .told own rfl
  | cancelled => exact .cancelled

theorem Follows.given {ask : Ask} {record other : Record} {outcome reply : Except Failure Reply}
    {phase : Phase} (follows : Follows ask record outcome phase) (awaits : Awaits other phase) :
    Follows ask record outcome (phase.given reply) := by
  cases awaits with
  | waiting own unreplied =>
    cases follows with
    | told own replied => simp [unreplied] at replied
    | runs leads other => exact .runs leads other
  | cancelled => exact .cancelled

theorem State.calls_settle_setPhase (s : State) (caller : Nat) (reply : Except Failure Reply)
    (phase : Phase) :
    ((s.settle caller reply).setPhase caller phase).calls = (s.setPhase caller phase).calls := by
  apply List.ext_getElem?
  intro i
  rw [calls_setPhase, calls_setPhase, calls_settle]
  by_cases own : i = caller
  · simp [own, Function.comp_def]
  · simp [own]

theorem State.calls_settle_cleared_setPhase (s : State) (caller : Nat)
    (reply : Except Failure Reply) (phase : Phase) :
    ((s.settle caller reply).cleared.setPhase caller phase).calls =
      (s.cleared.setPhase caller phase).calls := by
  apply List.ext_getElem?
  intro i
  rw [calls_setPhase, calls_setPhase, calls_cleared, calls_cleared, calls_settle, settle_eq]
  by_cases own : i = caller
  · rw [if_pos own, if_pos own, if_pos own]
    split <;> simp [Function.comp_def]
  · simp [own]

namespace Linked

variable {known : List Record} {gone : List Removal} {s : State}

theorem mono (linked : Linked known gone s) {more : List Removal}
    (keeps : ∀ removal ∈ gone, removal ∈ more) : Linked known more s := by
  refine ⟨linked.callers, linked.awaited, linked.waits, ?_⟩
  intro record member
  rcases linked.fates record member with held | ⟨removal, left, same, call, found, follows⟩
  · exact .inl held
  · exact .inr ⟨removal, keeps removal left, same, call, found, follows⟩

theorem congr (linked : Linked known gone s) {s' : State} (pending : s'.pending = s.pending)
    (calls : s'.calls = s.calls) : Linked known gone s' := by
  constructor
  · rw [pending]
    exact linked.callers
  · rw [pending, calls]
    exact linked.awaited
  · rw [calls]
    exact linked.waits
  · rw [pending, calls]
    exact linked.fates

theorem replied (linked : Linked known gone s) {caller : Nat} {ask : Ask} {wait : Wait}
    {reply : Except Failure Reply} (found : s.calls[caller]? = some ⟨ask, .waiting wait⟩)
    (replied : wait.reply = some reply) :
    ∃ removal ∈ gone, removal.record = wait.record caller ∧ removal.outcome = reply := by
  rcases linked.fates _ (linked.waits caller ask wait found) with
    held | ⟨removal, left, same, call, found', follows⟩
  · obtain ⟨call, found', awaits⟩ := linked.awaited _ held
    cases found.symm.trans found'
    cases awaits with
    | waiting own unreplied => exact nomatch replied.symm.trans unreplied
  · cases found.symm.trans found'
    cases follows with
    | told own replied' =>
      exact ⟨removal, left, same, Option.some.inj (replied'.symm.trans replied)⟩
    | runs leads other => exact absurd rfl other

theorem reply_of_gone (linked : Linked known gone s) {caller : Nat} {ask : Ask} {wait : Wait}
    (found : s.calls[caller]? = some ⟨ask, .waiting wait⟩) (absent : s.record? wait.id = none) :
    ∃ reply, wait.reply = some reply := by
  rcases linked.fates _ (linked.waits caller ask wait found) with
    held | ⟨removal, left, same, call, found', follows⟩
  · simp only [State.record?, List.find?_eq_none] at absent
    exact absurd (absent _ held) (by simp [Wait.record])
  · cases found.symm.trans found'
    cases follows with
    | told own replied => exact ⟨_, replied⟩
    | runs leads other => exact absurd rfl other

theorem own_record {settings : Settings} {past : List Transition}
    (linked : Linked (registrations past) gone s) (orderly : Orderly settings past s) {caller : Nat}
    {ask : Ask} {wait : Wait} {record : Record}
    (found : s.calls[caller]? = some ⟨ask, .waiting wait⟩)
    (held : s.record? wait.id = some record) :
    record = wait.record caller ∧ record ∈ s.pending := by
  obtain ⟨pending, id⟩ := mem_of_record? held
  have registered := linked.waits caller ask wait found
  exact ⟨orderly.eq_of_id (orderly.pending_registered pending) registered id, pending⟩

theorem not_pending (linked : Linked known gone s) {caller : Nat} {ask : Ask} {phase : Phase}
    (found : s.calls[caller]? = some ⟨ask, phase⟩) (owes : ∀ record, ¬Awaits record phase)
    {record : Record} (held : record ∈ s.pending) : record.caller ≠ caller := by
  rintro rfl
  obtain ⟨call, same, awaits⟩ := linked.awaited record held
  rw [found] at same
  obtain rfl := Option.some.inj same
  exact owes record awaits

theorem released (linked : Linked known gone s) {s' : State} {left : List Removal}
    (reply : Except Failure Reply) (shorter : s'.pending.Sublist s.pending)
    (held : ∀ removal ∈ left, removal.record ∈ s.pending ∧ removal.outcome = reply)
    (kept : ∀ record ∈ s.pending, record ∈ s'.pending ∨ ∃ removal ∈ left, removal.record = record)
    (parted : ∀ removal ∈ left, ∀ record ∈ s'.pending, removal.record.caller ≠ record.caller)
    (calls : ∀ i, s'.calls[i]? = if i ∈ left.map (·.record.caller)
      then s.calls[i]?.map (Call.given reply) else s.calls[i]?) :
    Linked known (gone ++ left) s' := by
  have told : ∀ removal ∈ left, ∀ call, s.calls[removal.record.caller]? = some call →
      s'.calls[removal.record.caller]? = some (call.given reply) := by
    intro removal member call found
    rw [calls, if_pos (List.mem_map_of_mem member), found]
    rfl
  have untold : ∀ i, i ∉ left.map (·.record.caller) → s'.calls[i]? = s.calls[i]? := by
    intro i absent
    rw [calls, if_neg absent]
  refine ⟨linked.callers.sublist (shorter.map _), ?_, ?_, ?_⟩
  · intro record member
    obtain ⟨call, found, awaits⟩ := linked.awaited record (shorter.mem member)
    refine ⟨call, ?_, awaits⟩
    rw [untold record.caller, found]
    intro among
    obtain ⟨removal, gone, same⟩ := List.mem_map.mp among
    exact parted removal gone record member same
  · intro caller ask wait found
    rw [calls] at found
    split at found
    · obtain ⟨⟨ask', phase⟩, before, eq⟩ := Option.map_eq_some_iff.mp found
      rcases phase with _ | before' | outcome | _ <;>
        simp only [Call.given, Phase.given, Call.mk.injEq, Phase.waiting.injEq, reduceCtorEq,
          and_false] at eq
      obtain ⟨rfl, rfl⟩ := eq
      exact linked.waits caller _ before' before
    · exact linked.waits caller ask wait found
  · intro record member
    rcases linked.fates record member with pending | ⟨removal, past, same, call, found, follows⟩
    · rcases kept record pending with stays | ⟨removal, now, same⟩
      · exact .inl stays
      · obtain ⟨call, found, awaits⟩ := linked.awaited record pending
        subst same
        refine .inr ⟨removal, List.mem_append_right _ now, rfl, _, told removal now call found, ?_⟩
        rw [(held removal now).2]
        exact awaits.given
    · refine .inr ⟨removal, List.mem_append_left _ past, same, ?_⟩
      by_cases among : record.caller ∈ left.map (·.record.caller)
      · obtain ⟨other, now, eq⟩ := List.mem_map.mp among
        obtain ⟨call', found', awaits⟩ := linked.awaited other.record (held other now).1
        rw [eq, found] at found'
        obtain rfl := Option.some.inj found'
        refine ⟨_, eq ▸ told other now call (eq ▸ found), follows.given awaits⟩
      · exact ⟨call, (untold _ among).trans found, follows⟩

theorem cleared (linked : Linked known gone s) :
    Linked known (gone ++ s.pending.map (⟨·, .reset⟩)) s.cleared := by
  refine linked.released (.error .resetInterrupted) ?_ ?_ ?_ ?_ ?_
  · rw [cleared_pending]
    exact List.nil_sublist _
  · intro removal member
    obtain ⟨record, held, rfl⟩ := List.mem_map.mp member
    exact ⟨held, rfl⟩
  · intro record held
    exact .inr ⟨⟨record, .reset⟩, List.mem_map_of_mem held, rfl⟩
  · simp [cleared_pending]
  · intro i
    rw [s.calls_cleared, List.map_map]
    rfl

theorem told (linked : Linked known gone s) {record : Record} (held : record ∈ s.pending)
    (unique : ∀ other ∈ s.pending, other.id = record.id → other = record) (remover : Remover) :
    Linked known (gone ++ [⟨record, remover⟩]) ((s.removeRecord record.id).settle record.caller
      (Removal.outcome ⟨record, remover⟩)) := by
  have pending : ∀ other, other ∈ (s.removeRecord record.id).pending ↔
      other ∈ s.pending ∧ other.id ≠ record.id := by
    simp [State.removeRecord]
  refine linked.released (Removal.outcome ⟨record, remover⟩) ?_ ?_ ?_ ?_ ?_
  · rw [State.settle_eq]
    exact List.filter_sublist
  · rintro removal member
    obtain rfl := List.mem_singleton.mp member
    exact ⟨held, rfl⟩
  · intro other member
    by_cases same : other.id = record.id
    · exact .inr ⟨⟨record, remover⟩, List.mem_singleton_self _, (unique other member same).symm⟩
    · left
      rw [State.settle_eq]
      exact (pending other).mpr ⟨member, same⟩
  · rintro removal member other stays same
    obtain rfl := List.mem_singleton.mp member
    rw [State.settle_eq] at stays
    obtain ⟨held', different⟩ := (pending other).mp stays
    exact different (congrArg Record.id (List.inj_on_of_nodup_map linked.callers held' held same.symm))
  · intro i
    rw [State.calls_settle]
    simp [State.removeRecord]

theorem moved (linked : Linked known gone s) {caller : Nat} {ask : Ask} {phase phase' : Phase}
    (found : s.calls[caller]? = some ⟨ask, phase⟩)
    (waits : ∀ wait, phase' = .waiting wait → wait.record caller ∈ known)
    (awaits : ∀ record ∈ s.pending, record.caller = caller → Awaits record phase →
      Awaits record phase')
    (follows : ∀ removal ∈ gone, removal.record.caller = caller →
      Follows ask removal.record removal.outcome phase →
      Follows ask removal.record removal.outcome phase') :
    Linked known gone (s.setPhase caller phase') := by
  have here : (s.setPhase caller phase').calls[caller]? = some ⟨ask, phase'⟩ := by
    rw [s.calls_setPhase, if_pos rfl, found]
    rfl
  have elsewhere : ∀ i, i ≠ caller → (s.setPhase caller phase').calls[i]? = s.calls[i]? := by
    intro i other
    rw [s.calls_setPhase, if_neg other]
  refine ⟨linked.callers, ?_, ?_, ?_⟩
  · intro record held
    obtain ⟨call, before, owed⟩ := linked.awaited record held
    by_cases same : record.caller = caller
    · rw [same, found] at before
      obtain rfl := Option.some.inj before
      exact ⟨⟨ask, phase'⟩, same.symm ▸ here, awaits record held same owed⟩
    · exact ⟨call, (elsewhere _ same).trans before, owed⟩
  · intro i ask' wait after
    by_cases same : i = caller
    · subst same
      rw [here] at after
      injection after with after
      injection after with _ after
      exact waits wait after
    · exact linked.waits i ask' wait ((elsewhere i same).symm.trans after)
  · intro record member
    rcases linked.fates record member with held | ⟨removal, left, rfl, call, before, owed⟩
    · exact .inl held
    · refine .inr ⟨removal, left, rfl, ?_⟩
      by_cases same : removal.record.caller = caller
      · rw [same, found] at before
        obtain rfl := Option.some.inj before
        exact ⟨⟨ask, phase'⟩, same.symm ▸ here, follows removal left same owed⟩
      · exact ⟨call, (elsewhere _ same).trans before, owed⟩

theorem ended (linked : Linked known gone s) {caller : Nat} {ask : Ask} {phase : Phase}
    (found : s.calls[caller]? = some ⟨ask, .admitted⟩)
    (moves : phase = .admitted ∨ ∃ result, phase = .finished result) :
    Linked known gone (s.setPhase caller phase) := by
  refine linked.moved found ?_ ?_ ?_
  · rintro wait rfl
    simp at moves
  · intro record _ _ owed
    cases owed
  · intro removal _ _ owed
    cases owed with
    | admitted leads =>
      rcases moves with rfl | ⟨result, rfl⟩
      · exact .admitted leads
      · exact .ended leads

theorem taken (linked : Linked known gone s) {caller : Nat} {ask : Ask} {wait : Wait}
    {reply : Except Failure Reply} (found : s.calls[caller]? = some ⟨ask, .waiting wait⟩)
    (replied : wait.reply = some reply) :
    Linked known gone (s.setPhase caller (resolution ask wait.awaited reply)) := by
  have leads := resolution_cases ask wait.awaited reply
  refine linked.moved found ?_ ?_ ?_
  · intro next eq
    simp [eq] at leads
  · intro record _ _ owed
    cases owed with
    | waiting own unreplied => simp [replied] at unreplied
  · intro removal _ _ owed
    cases owed with
    | told own replied' =>
      have same : removal.outcome = reply := Option.some.inj (replied'.symm.trans replied)
      have awaited : removal.record.awaited = wait.awaited := (congrArg Record.awaited own).symm
      rw [← awaited, ← same] at leads ⊢
      rcases leads with leads | ⟨result, leads⟩
      · rw [leads]
        exact .admitted leads
      · rw [leads]
        exact .concluded leads
    | runs before other =>
      rcases leads with leads | ⟨result, leads⟩
      · rw [leads]
        exact .admitted before
      · rw [leads]
        exact .ended before

section
variable {caller : Nat} {ask : Ask} {wait : Wait} (cause : Failure)

theorem withdrawn (linked : Linked known gone s)
    (found : s.calls[caller]? = some ⟨ask, .waiting wait⟩) (held : wait.record caller ∈ s.pending)
    (unique : ∀ other ∈ s.pending, other.id = wait.id → other = wait.record caller)
    (timeout : Removal.outcome ⟨wait.record caller, .timer wait.budget⟩ = .error cause) :
    Linked known (gone ++ [⟨wait.record caller, .timer wait.budget⟩])
        ((s.removeRecord wait.id).settle caller (.error cause)) ∧
      ((s.removeRecord wait.id).settle caller (.error cause)).calls[caller]? =
        some ⟨ask, .waiting { wait with reply := some (.error cause) }⟩ := by
  rw [← timeout]
  refine ⟨linked.told held unique (.timer wait.budget), ?_⟩
  rw [State.calls_settle, if_pos rfl]
  change s.calls[caller]?.map _ = _
  rw [found]
  rfl

theorem lapsed (linked : Linked known gone s)
    (found : s.calls[caller]? = some ⟨ask, .waiting wait⟩) (held : wait.record caller ∈ s.pending)
    (unique : ∀ other ∈ s.pending, other.id = wait.id → other = wait.record caller)
    (timeout : Removal.outcome ⟨wait.record caller, .timer wait.budget⟩ = .error cause) :
    Linked known (gone ++ [⟨wait.record caller, .timer wait.budget⟩])
      ((s.removeRecord wait.id).finish caller (.error cause)) := by
  obtain ⟨linked, found⟩ := linked.withdrawn cause found held unique timeout
  refine (linked.taken found rfl).congr ?_ ?_
  · rw [State.settle_eq]
    rfl
  · exact (State.calls_settle_setPhase _ _ _ _).symm

theorem overran (linked : Linked known gone s)
    (found : s.calls[caller]? = some ⟨ask, .waiting wait⟩) (held : wait.record caller ∈ s.pending)
    (unique : ∀ other ∈ s.pending, other.id = wait.id → other = wait.record caller)
    (timeout : Removal.outcome ⟨wait.record caller, .timer wait.budget⟩ = .error cause) :
    Linked known (gone ++ (⟨wait.record caller, .timer wait.budget⟩ ::
        (s.removeRecord wait.id).pending.map (⟨·, .reset⟩)))
      ((s.removeRecord wait.id).cleared.finish caller (.error cause)) := by
  obtain ⟨withdrawn, found⟩ := linked.withdrawn cause found held unique timeout
  have cleared := withdrawn.cleared
  have told : ((s.removeRecord wait.id).settle caller (.error cause)).cleared.calls[caller]? =
      some ⟨ask, .waiting { wait with reply := some (.error cause) }⟩ := by
    rw [State.calls_cleared, if_neg, found]
    intro among
    obtain ⟨other, held', same⟩ := List.mem_map.mp among
    exact withdrawn.not_pending found (fun _ owed => by cases owed; contradiction) held' same
  rw [List.append_assoc, settle_pending] at cleared
  refine (cleared.taken told rfl).congr ?_ ?_
  · change (State.cleared _).pending = (State.cleared _).pending
    rw [cleared_pending, cleared_pending]
  · exact (State.calls_settle_cleared_setPhase _ _ _ _).symm

end

theorem registered (linked : Linked known gone s) {caller : Nat} {ask : Ask} {wait : Wait}
    (found : s.calls[caller]? = some ⟨ask, .admitted⟩) (unreplied : wait.reply = none)
    (fresh : ∀ record ∈ known, record.id ≠ wait.id) {s' : State}
    (pending : s'.pending = wait.record caller :: s.pending)
    (calls : s'.calls = (s.setPhase caller (.waiting wait)).calls) :
    Linked (known ++ [wait.record caller]) gone s' := by
  have idle : ∀ record ∈ s.pending, record.caller ≠ caller := by
    intro record held
    exact linked.not_pending found (fun _ owed => nomatch owed) held
  have here : s'.calls[caller]? = some ⟨ask, .waiting wait⟩ := by
    rw [calls, s.calls_setPhase, if_pos rfl, found]
    rfl
  have elsewhere : ∀ i, i ≠ caller → s'.calls[i]? = s.calls[i]? := by
    intro i other
    rw [calls, s.calls_setPhase, if_neg other]
  refine ⟨?_, ?_, ?_, ?_⟩
  · rw [pending]
    refine List.nodup_cons.mpr ⟨?_, linked.callers⟩
    intro among
    obtain ⟨record, held, same⟩ := List.mem_map.mp among
    exact idle record held same
  · intro record held
    rw [pending] at held
    rcases List.mem_cons.mp held with rfl | held
    · exact ⟨_, here, .waiting rfl unreplied⟩
    · obtain ⟨call, before, owed⟩ := linked.awaited record held
      exact ⟨call, (elsewhere _ (idle record held)).trans before, owed⟩
  · intro i ask' wait' after
    by_cases same : i = caller
    · subst same
      rw [here] at after
      cases after
      exact List.mem_append_right _ (List.mem_singleton_self _)
    · exact List.mem_append_left _ (linked.waits i ask' wait' ((elsewhere i same).symm.trans after))
  · intro record member
    rcases List.mem_append.mp member with member | new
    · rcases linked.fates record member with held | ⟨removal, left, rfl, call, before, owed⟩
      · exact .inl (pending ▸ List.mem_cons_of_mem _ held)
      · refine .inr ⟨removal, left, rfl, ?_⟩
        by_cases same : removal.record.caller = caller
        · rw [same, found] at before
          cases before
          cases owed with
          | admitted leads =>
            refine ⟨_, same ▸ here, .runs leads ?_⟩
            intro own
            exact fresh _ member (congrArg Record.id own.symm)
        · exact ⟨call, (elsewhere _ same).trans before, owed⟩
    · rw [List.mem_singleton.mp new, pending]
      exact .inl (List.mem_cons_self ..)

theorem opened (linked : Linked known gone s) (ask : Ask) : Linked known gone (s.opened ask) := by
  have old : ∀ (i : Nat) (call : Call), s.calls[i]? = some call → (s.opened ask).calls[i]? = some call := by
    intro i call found
    have : i < s.calls.length := (List.getElem?_eq_some_iff.mp found).choose
    rw [s.calls_opened, if_neg (by omega), found]
  refine ⟨linked.callers, ?_, ?_, ?_⟩
  · intro record held
    obtain ⟨call, found, owed⟩ := linked.awaited record held
    exact ⟨call, old _ _ found, owed⟩
  · intro caller ask' wait found
    rw [s.calls_opened] at found
    split at found
    · cases found
    · exact linked.waits caller ask' wait found
  · intro record member
    rcases linked.fates record member with held | ⟨removal, left, same, call, found, owed⟩
    · exact .inl held
    · exact .inr ⟨removal, left, same, call, old _ _ found, owed⟩

section
variable {past : List Transition} {action : Action} {effects : List Effect} {s' : State}

theorem extend {more : List Removal}
    (linked : Linked (registrations past) (removals past ++ more) s')
    (shorter : s'.pending.Sublist s.pending)
    (explained : ∀ removal ∈ more, removal.record ∈ s.pending ∧ removal.record ∉ s'.pending ∧
      (Transition.mk action s effects s').remover removal.record = removal.remover) :
    Linked (registrations (past ++ [⟨action, s, effects, s'⟩]))
      (removals (past ++ [⟨action, s, effects, s'⟩])) s' := by
  rw [registrations_append, registrations_singleton, Transition.registered_eq_nil shorter,
    List.append_nil, removals_append, removals_singleton]
  refine linked.mono ?_
  intro removal member
  rcases List.mem_append.mp member with past | new
  · exact List.mem_append_left _ past
  · exact List.mem_append_right _ ((Transition.mem_removals _).mpr (explained removal new))

theorem extend_unchanged (linked : Linked (registrations past) (removals past) s')
    (pending : s'.pending = s.pending) :
    Linked (registrations (past ++ [⟨action, s, effects, s'⟩]))
      (removals (past ++ [⟨action, s, effects, s'⟩])) s' := by
  rw [← List.append_nil (removals past)] at linked
  exact linked.extend (pending ▸ List.Sublist.refl _) (by simp)

theorem extend_emptied
    (linked : Linked (registrations past) (removals past ++ s.pending.map (⟨·, .reset⟩)) s')
    (empty : s'.pending = [])
    (reset : ∀ record ∈ s.pending, (Transition.mk action s effects s').remover record = .reset) :
    Linked (registrations (past ++ [⟨action, s, effects, s'⟩]))
      (removals (past ++ [⟨action, s, effects, s'⟩])) s' := by
  refine linked.extend (empty ▸ List.nil_sublist _) ?_
  intro removal member
  obtain ⟨record, held, rfl⟩ := List.mem_map.mp member
  exact ⟨held, by simp [empty], reset record held⟩

theorem extend_removed {removal : Removal}
    (linked : Linked (registrations past) (removals past ++ [removal]) s')
    (held : removal.record ∈ s.pending)
    (pending : s'.pending = (s.removeRecord removal.record.id).pending)
    (own : (Transition.mk action s effects s').remover removal.record = removal.remover) :
    Linked (registrations (past ++ [⟨action, s, effects, s'⟩]))
      (removals (past ++ [⟨action, s, effects, s'⟩])) s' := by
  refine linked.extend (pending ▸ List.filter_sublist) ?_
  intro other member
  obtain rfl := List.mem_singleton.mp member
  exact ⟨held, by simp [pending, State.removeRecord], own⟩

theorem extend_ruined {removal : Removal}
    (linked : Linked (registrations past) (removals past ++
      removal :: (s.removeRecord removal.record.id).pending.map (⟨·, .reset⟩)) s')
    (held : removal.record ∈ s.pending) (empty : s'.pending = [])
    (own : (Transition.mk action s effects s').remover removal.record = removal.remover)
    (others : ∀ other ∈ s.pending, other.id ≠ removal.record.id →
      (Transition.mk action s effects s').remover other = .reset) :
    Linked (registrations (past ++ [⟨action, s, effects, s'⟩]))
      (removals (past ++ [⟨action, s, effects, s'⟩])) s' := by
  refine linked.extend (empty ▸ List.nil_sublist _) ?_
  intro member among
  rcases List.mem_cons.mp among with rfl | among
  · exact ⟨held, by simp [empty], own⟩
  · obtain ⟨other, stays, rfl⟩ := List.mem_map.mp among
    obtain ⟨held', different⟩ := List.mem_filter.mp stays
    exact ⟨held', by simp [empty], others other held' (by simpa using different)⟩

theorem extend_added {record : Record}
    (linked : Linked (registrations past ++ [record]) (removals past) s')
    (pending : s'.pending = record :: s.pending) (absent : record ∉ s.pending) :
    Linked (registrations (past ++ [⟨action, s, effects, s'⟩]))
      (removals (past ++ [⟨action, s, effects, s'⟩])) s' := by
  rw [registrations_append, registrations_singleton,
    Transition.registered_eq_singleton pending absent, removals_append, removals_singleton,
    Transition.removals, Transition.removed_eq_nil pending, List.map_nil, List.append_nil]
  exact linked

end

end Linked

theorem Dispatch.linked {settings : Settings} {known : List Record} {gone : List Removal}
    {s s' : State} {caller : Nat} {awaited : Awaited} {kind : Request.Kind} {budget : Duration}
    {effects : List Effect} {ask : Ask}
    (dispatch : Dispatch settings s caller awaited kind budget effects s')
    (linked : Linked known gone s) (found : s.calls[caller]? = some ⟨ask, .admitted⟩)
    (fresh : ∀ record ∈ known, record.id ≠ settings.ids s.issued) :
    (∃ record, record.id = settings.ids s.issued ∧ s'.pending = record :: s.pending ∧
      Linked (known ++ [record]) gone s') ∨
    (s'.pending = [] ∧ Linked known (gone ++ s.pending.map (⟨·, .reset⟩)) s') := by
  cases dispatch with
  | registered held =>
    have unreplied : Wait.reply
        { awaited, id := settings.ids s.issued, budget, deadline := s.now + budget } = none := rfl
    exact .inl ⟨_, rfl, rfl, linked.registered found unreplied fresh rfl rfl⟩
  | unposted held cause =>
    have counted : Linked known gone { s with issued := s.issued + 1 } := linked.congr rfl rfl
    have found' : (State.cleared { s with issued := s.issued + 1 }).calls[caller]? =
        some ⟨ask, .admitted⟩ := by
      rw [State.calls_cleared, if_neg, found]
      intro among
      obtain ⟨record, held, same⟩ := List.mem_map.mp among
      exact linked.not_pending found (fun _ owed => nomatch owed) held same
    exact .inr ⟨cleared_pending _, counted.cleared.ended found' (.inr ⟨_, rfl⟩)⟩

section
variable {settings : Settings} {past : List Transition} {s s' : State} {action : Action}
  {effects : List Effect}

theorem Change.linked (change : Change settings s action effects s')
    (distinct : Function.Injective settings.ids) (orderly : Orderly settings past s)
    (linked : Linked (registrations past) (removals past) s) :
    Linked (registrations (past ++ [⟨action, s, effects, s'⟩]))
      (removals (past ++ [⟨action, s, effects, s'⟩])) s' := by
  have newest : ∀ ask, (s.opened ask).calls[s.calls.length]? = some ⟨ask, .admitted⟩ := by
    intro ask
    rw [s.calls_opened, if_pos rfl]
  cases change with
  | idle => exact linked.extend_unchanged rfl
  | advanced span => exact Linked.extend_unchanged (linked.congr rfl rfl) rfl
  | cancelled found active =>
    obtain ⟨⟨ask, phase⟩, held, rfl⟩ := Option.map_eq_some_iff.mp found
    refine (linked.moved held ?_ ?_ ?_).extend_unchanged rfl
    · exact fun _ eq => nomatch eq
    · exact fun _ _ _ _ => .cancelled
    · exact fun _ _ _ _ => .cancelled
  | reset => exact linked.cleared.extend_emptied (cleared_pending s) (fun _ _ => rfl)
  | dropped =>
    refine Linked.extend_emptied (linked.cleared.congr ?_ ?_) (cleared_pending s) (fun _ _ => rfl)
    · rfl
    · rfl
  | crashed current => exact linked.cleared.extend_emptied (cleared_pending s) (fun _ _ => rfl)
  | @answered generation response record current found survives =>
    obtain ⟨held, id⟩ := mem_of_record? found
    have told := linked.told held (orderly.alone held) (.response response.kind)
    rw [id] at told
    refine Linked.extend_removed (told.congr ?_ ?_) held ?_ (by simp [Transition.remover, id])
    · rw [State.settle_eq, State.settle_eq]
    · rw [State.settle_eq, State.settle_eq]
      rfl
    · rw [State.settle_eq, id]
  | @failed generation id message record current found handshake =>
    obtain ⟨held, rfl⟩ := mem_of_record? found
    have told := linked.told held (orderly.alone held) (.response (.failure message))
    have outcome : Removal.outcome ⟨record, .response (.failure message)⟩ =
        .error (.bootstrapFailure message) := by
      simp [Removal.outcome, handshake, answer]
    rw [outcome] at told
    have cleared := told.cleared
    rw [List.append_assoc, settle_pending] at cleared
    refine Linked.extend_ruined cleared held (cleared_pending _) (by simp [Transition.remover]) ?_
    intro other _ different
    simp [Transition.remover, Ne.symm different]
  | refused found unready => exact (linked.ended found (.inr ⟨_, rfl⟩)).extend_unchanged rfl
  | @sent caller code budgets _ _ found ready dispatch =>
    rcases dispatch.linked linked found (fun _ => orderly.fresh distinct) with
      ⟨record, id, pending, linked'⟩ | ⟨empty, linked'⟩
    · refine linked'.extend_added pending ?_
      exact fun held => orderly.fresh distinct (orderly.pending_registered held) id
    · refine linked'.extend_emptied empty ?_
      intro record held
      have other := linked.not_pending found (fun _ owed => nomatch owed) held
      simp only [Transition.remover]
      split
      · rw [if_neg (Ne.symm other)]
      · rfl
  | @noticed caller ask wait found unexpired unreplied due =>
    refine (linked.moved found ?_ ?_ ?_).extend_unchanged rfl
    · rintro _ ⟨⟩
      exact linked.waits _ _ wait found
    · intro record _ _ owed
      cases owed with
      | waiting own unreplied => exact .waiting own unreplied
    · intro removal _ _ owed
      cases owed with
      | told own replied => exact .told own replied
      | runs leads other => exact .runs leads other
  | @resolved caller ask wait reply found replied =>
    refine (linked.taken found ?_).extend_unchanged rfl
    cases replied with
    | arrived unexpired replied => exact replied
    | late expired gone =>
      obtain ⟨reply, replied⟩ := linked.reply_of_gone found gone
      rw [replied]
      rfl
  | @lapsed caller ask wait record found expired held handshake =>
    obtain ⟨rfl, pending⟩ := linked.own_record orderly found held
    have lapsed := linked.lapsed (.initTimeout wait.budget) found pending (orderly.alone pending)
      (by simp [Removal.outcome, Wait.record, handshake])
    refine lapsed.extend_removed pending rfl ?_
    simp [Transition.remover, Wait.record, State.phase?, found]
  | @overran caller ask wait record found expired held run =>
    obtain ⟨rfl, pending⟩ := linked.own_record orderly found held
    have overran := linked.overran (.executionTimeout wait.budget) found pending
      (orderly.alone pending) (by simp [Removal.outcome, Wait.record, run])
    refine Linked.extend_ruined overran pending (cleared_pending _) ?_ ?_
    · simp [Transition.remover, Wait.record, State.phase?, found]
    · intro other held' different
      have apart : caller ≠ other.caller := by
        intro eq
        obtain rfl := List.inj_on_of_nodup_map linked.callers held' pending eq.symm
        exact different rfl
      simp only [Transition.remover]
      split
      · rw [if_neg apart]
      · rfl
  | @uncreated ask absent cause =>
    have ended := (linked.opened ask).ended (newest ask) (.inr ⟨.error cause, rfl⟩)
    exact Linked.extend_unchanged (ended.congr rfl rfl) rfl
  | @unwarmed ask absent cause =>
    have ended := (linked.opened ask).ended (newest ask) (.inr ⟨.error cause, rfl⟩)
    exact Linked.extend_unchanged (ended.congr rfl rfl) rfl
  | entered ready =>
    exact ((linked.opened _).ended (newest _) (resolution_cases _ _ _)).extend_unchanged rfl
  | pinged provision unready dispatch =>
    obtain ⟨pending, issued, calls⟩ := provision.table
    have opened := (linked.opened _).congr pending calls
    have fresh : ∀ record ∈ registrations past, record.id ≠ settings.ids _ :=
      fun _ => issued ▸ orderly.fresh distinct
    rcases dispatch.linked opened (calls ▸ newest _) fresh with
      ⟨record, id, pending', linked'⟩ | ⟨empty, linked'⟩
    · refine linked'.extend_added (pending'.trans (pending ▸ rfl)) ?_
      exact fun held => orderly.fresh distinct (orderly.pending_registered held)
        (id.trans (congrArg _ issued))
    · rw [pending] at linked'
      exact Linked.extend_emptied linked' empty (fun _ _ => rfl)

theorem Course.linked (course : Course settings past s)
    (distinct : Function.Injective settings.ids) :
    Linked (registrations past) (removals past) s := by
  induction course with
  | start => exact ⟨by simp, by simp, by simp, by simp [registrations]⟩
  | extend earlier change ih => exact change.linked distinct (earlier.orderly distinct) ih

end

end Sandbox.Client

import Mathlib.Data.List.Nodup
import Sandbox.Proofs.Client.Change

namespace Sandbox.Client

namespace Transition

variable (t : Transition)

def registered : List Record := t.after.pending.filter (· ∉ t.before.pending)

def removed : List Record := t.before.pending.filter (· ∉ t.after.pending)

variable {t}

theorem registered_eq_nil (shorter : t.after.pending.Sublist t.before.pending) :
    t.registered = [] := by
  refine List.filter_eq_nil_iff.mpr ?_
  intro record kept
  simpa using shorter.mem kept

theorem registered_eq_singleton {record : Record}
    (pending : t.after.pending = record :: t.before.pending)
    (absent : record ∉ t.before.pending) : t.registered = [record] := by
  rw [registered, pending, List.filter_cons_of_pos (by simpa using absent)]
  rw [List.filter_eq_nil_iff.mpr (by simp)]

theorem removed_eq_nil {record : Record} (pending : t.after.pending = record :: t.before.pending) :
    t.removed = [] := by
  refine List.filter_eq_nil_iff.mpr ?_
  intro record held
  simp [pending, held]

end Transition

def registrations (past : List Transition) : List Record := past.flatMap Transition.registered

def departures (past : List Transition) : List Record := past.flatMap Transition.removed

@[simp] theorem registrations_append (past more : List Transition) :
    registrations (past ++ more) = registrations past ++ registrations more :=
  List.flatMap_append

@[simp] theorem departures_append (past more : List Transition) :
    departures (past ++ more) = departures past ++ departures more :=
  List.flatMap_append

@[simp] theorem registrations_singleton (t : Transition) : registrations [t] = t.registered :=
  List.flatMap_singleton _ _

@[simp] theorem departures_singleton (t : Transition) : departures [t] = t.removed :=
  List.flatMap_singleton _ _

/-! ## What an action does to the table -/

def Ask.request? (ask : Ask) : Awaited → Option Request.Kind
  | .handshake => some .ping
  | .run => match ask with
    | .ready _ => none
    | .run code _ => some (.run code)

structure Transition.Dispatches (t : Transition) (record : Record) (generation : Nat) : Prop where
  pending : t.after.pending = record :: t.before.pending
  current : t.after.live.map Live.generation = some generation
  asked : ∃ call kind, t.after.calls[record.caller]? = some call ∧
    call.ask.request? record.awaited = some kind ∧
    .posted generation ⟨record.id, kind⟩ (.ok ()) ∈ t.effects

inductive TableChange (settings : Settings) (t : Transition) : Prop
  | reduced (shorter : t.after.pending.Sublist t.before.pending)
    (issued : t.before.issued ≤ t.after.issued)
  | added {record : Record} {generation : Nat} (dispatches : t.Dispatches record generation)
    (id : record.id = settings.ids t.before.issued) (issued : t.after.issued = t.before.issued + 1)

theorem settle_pending (s : State) (caller : Nat) (reply : Except Failure Reply) :
    (s.settle caller reply).pending = s.pending := by
  rw [s.settle_eq]

theorem cleared_pending (s : State) : s.cleared.pending = [] := by
  obtain ⟨calls, eq⟩ := s.cleared_eq
  rw [eq]

theorem cleared_issued (s : State) : s.cleared.issued = s.issued := by
  obtain ⟨calls, eq⟩ := s.cleared_eq
  rw [eq]

theorem Provision.table {s provided : State} {effects : List Effect}
    (provision : Provision s effects provided) :
    provided.pending = s.pending ∧ provided.issued = s.issued ∧ provided.calls = s.calls := by
  cases provision <;> exact ⟨rfl, rfl, rfl⟩

theorem Dispatch.table {settings : Settings} {s provided s' : State} {caller : Nat} {ask : Ask}
    {awaited : Awaited} {kind : Request.Kind} {budget : Duration} {effects : List Effect}
    (dispatch : Dispatch settings provided caller awaited kind budget effects s')
    (pending : provided.pending = s.pending) (issued : provided.issued = s.issued)
    (found : provided.calls[caller]? = some ⟨ask, .admitted⟩)
    (request : ask.request? awaited = some kind) (action : Action) (earlier : List Effect) :
    TableChange settings ⟨action, s, earlier ++ effects, s'⟩ := by
  cases dispatch with
  | @registered live held =>
    refine .added ⟨congrArg _ pending, congrArg _ held, ?_⟩ (congrArg _ issued)
      (congrArg _ issued)
    let wait : Wait :=
      { awaited, id := settings.ids provided.issued, budget, deadline := provided.now + budget }
    refine ⟨⟨ask, .waiting wait⟩, kind, ?_, request, ?_⟩
    · rw [State.calls_setPhase, if_pos rfl]
      change provided.calls[caller]?.map _ = _
      rw [found]
      rfl
    · simp
  | unposted held cause =>
    refine .reduced ?_ ?_
    · rw [State.finish, State.setPhase, cleared_pending]
      exact List.nil_sublist _
    · rw [State.finish, State.setPhase, cleared_issued, ← issued]
      exact Nat.le_succ _

theorem Change.table {settings : Settings} {s s' : State} {action : Action} {effects : List Effect}
    (change : Change settings s action effects s') :
    TableChange settings ⟨action, s, effects, s'⟩ := by
  have emptied : ∀ s' : State, s'.pending = [] → s'.issued = s.issued →
      TableChange settings ⟨action, s, effects, s'⟩ := by
    intro s' pending issued
    refine .reduced ?_ (Nat.le_of_eq issued.symm)
    rw [pending]
    exact List.nil_sublist _
  cases change with
  | reset | crashed current => exact emptied _ (cleared_pending s) (cleared_issued s)
  | dropped => exact emptied _ (cleared_pending s) (cleared_issued s)
  | answered current found survives =>
    rw [State.settle_eq]
    exact .reduced List.filter_sublist (Nat.le_refl _)
  | failed current found handshake =>
    refine emptied _ (cleared_pending _) ?_
    rw [cleared_issued, State.settle_eq]
    rfl
  | lapsed found expired held handshake => exact .reduced List.filter_sublist (Nat.le_refl _)
  | overran found expired held run => exact emptied _ (cleared_pending _) (cleared_issued _)
  | sent found ready dispatch => exact dispatch.table rfl rfl found rfl _ []
  | @pinged ask _ _ _ _ provision unready dispatch =>
    obtain ⟨pending, issued, calls⟩ := provision.table
    replace pending : _ = s.pending := pending
    have found := s.calls_opened ask s.calls.length
    rw [if_pos rfl, ← calls] at found
    exact dispatch.table pending issued found rfl _ _
  | _ => exact .reduced (List.Sublist.refl _) (Nat.le_refl _)

/-! ## The table over a course -/

structure Orderly (settings : Settings) (past : List Transition) (s : State) : Prop where
  issued : ∀ record ∈ registrations past, ∃ n < s.issued, record.id = settings.ids n
  once : ((registrations past).map Record.id).Nodup
  balanced : List.Perm (registrations past) (departures past ++ s.pending)

section
variable {settings : Settings} {past : List Transition} {s : State}

theorem Orderly.pending_registered (orderly : Orderly settings past s) {record : Record}
    (pending : record ∈ s.pending) : record ∈ registrations past :=
  orderly.balanced.mem_iff.mpr (List.mem_append_right _ pending)

theorem Orderly.eq_of_id (orderly : Orderly settings past s) {a b : Record}
    (known : a ∈ registrations past) (known' : b ∈ registrations past) (same : a.id = b.id) :
    a = b :=
  List.inj_on_of_nodup_map orderly.once known known' same

theorem Orderly.alone (orderly : Orderly settings past s) {record : Record}
    (held : record ∈ s.pending) : ∀ other ∈ s.pending, other.id = record.id → other = record :=
  fun _ held' =>
    orderly.eq_of_id (orderly.pending_registered held') (orderly.pending_registered held)

theorem Orderly.pending_nodup (orderly : Orderly settings past s) : s.pending.Nodup := by
  have nodup : (registrations past).Nodup := orderly.once.of_map _
  exact (List.nodup_append.mp (orderly.balanced.nodup_iff.mp nodup)).2.1

theorem Orderly.not_pending_of_departed (orderly : Orderly settings past s) {record : Record}
    (gone : record ∈ departures past) : ∀ other ∈ s.pending, other.id ≠ record.id := by
  intro other held same
  have nodup := (orderly.balanced.map Record.id).nodup_iff.mp orderly.once
  rw [List.map_append] at nodup
  obtain ⟨-, -, apart⟩ := List.nodup_append.mp nodup
  exact apart _ (List.mem_map_of_mem gone) _ (List.mem_map_of_mem held) same.symm

theorem Orderly.fresh (orderly : Orderly settings past s)
    (distinct : Function.Injective settings.ids) {record : Record}
    (known : record ∈ registrations past) : record.id ≠ settings.ids s.issued := by
  intro same
  obtain ⟨n, earlier, eq⟩ := orderly.issued record known
  have := distinct (eq.symm.trans same)
  omega

private theorem perm_of_sublist {α : Type} [DecidableEq α] {l l' : List α} (nodup : l.Nodup)
    (shorter : l'.Sublist l) : List.Perm l (l.filter (· ∉ l') ++ l') := by
  refine (List.perm_ext_iff_of_nodup nodup ?_).mpr ?_
  · refine List.nodup_append.mpr ⟨nodup.filter _, nodup.sublist shorter, ?_⟩
    intro a gone b kept same
    subst same
    simp at gone
    exact gone.2 kept
  · intro a
    have := shorter.mem (a := a)
    by_cases kept : a ∈ l' <;> simp_all

theorem Orderly.extend (orderly : Orderly settings past s)
    (distinct : Function.Injective settings.ids) {s' : State} {action : Action}
    {effects : List Effect} (change : Change settings s action effects s') :
    Orderly settings (past ++ [⟨action, s, effects, s'⟩]) s' := by
  have nodup := orderly.pending_nodup
  cases change.table with
  | reduced shorter issued =>
    replace issued : s.issued ≤ s'.issued := issued
    have none_new : (Transition.mk action s effects s').registered = [] :=
      Transition.registered_eq_nil shorter
    have split : List.Perm s.pending
        ((Transition.mk action s effects s').removed ++ s'.pending) :=
      perm_of_sublist nodup shorter
    refine ⟨?_, ?_, ?_⟩
    · intro record known
      simp only [registrations_append, registrations_singleton, none_new, List.append_nil] at known
      obtain ⟨n, earlier, eq⟩ := orderly.issued record known
      exact ⟨n, by omega, eq⟩
    · simpa [none_new] using orderly.once
    · simp only [registrations_append, registrations_singleton, none_new, List.append_nil,
        departures_append, departures_singleton, List.append_assoc]
      exact orderly.balanced.trans (split.append_left _)
  | @added record generation dispatches id issued =>
    have pending : s'.pending = record :: s.pending := dispatches.pending
    replace issued : s'.issued = s.issued + 1 := issued
    have absent : record ∉ s.pending :=
      fun held => orderly.fresh distinct (orderly.pending_registered held) id
    have one_new : (Transition.mk action s effects s').registered = [record] :=
      Transition.registered_eq_singleton pending absent
    have none_gone : (Transition.mk action s effects s').removed = [] :=
      Transition.removed_eq_nil pending
    refine ⟨?_, ?_, ?_⟩
    · intro other known
      simp only [registrations_append, registrations_singleton, one_new, List.mem_append,
        List.mem_singleton] at known
      rcases known with known | rfl
      · obtain ⟨n, earlier, eq⟩ := orderly.issued _ known
        exact ⟨n, by omega, eq⟩
      · exact ⟨s.issued, by omega, id⟩
    · simp only [registrations_append, registrations_singleton, one_new, List.map_append,
        List.map_cons, List.map_nil]
      refine List.nodup_append.mpr ⟨orderly.once, List.nodup_singleton _, ?_⟩
      intro old known new same_new same
      obtain ⟨other, member, rfl⟩ := List.mem_map.mp known
      rw [List.mem_singleton.mp same_new, id] at same
      exact orderly.fresh distinct member same
    · simp only [registrations_append, registrations_singleton, one_new, departures_append,
        departures_singleton, none_gone, List.append_nil, pending]
      refine (orderly.balanced.append_right _).trans ?_
      rw [List.append_assoc]
      exact List.Perm.append_left _ (List.perm_append_singleton _ _)

theorem Course.orderly (course : Course settings past s)
    (distinct : Function.Injective settings.ids) : Orderly settings past s := by
  induction course with
  | start => exact ⟨by simp [registrations], by simp [registrations], .refl _⟩
  | extend earlier change ih => exact ih.extend distinct change

theorem Course.registered_from {earlier later : List Transition}
    (course : Course settings (earlier ++ later) s) :
    ∃ s', Course settings earlier s' ∧ s'.issued ≤ s.issued ∧
      ∀ record ∈ registrations later, ∃ n, s'.issued ≤ n ∧ record.id = settings.ids n := by
  generalize eq : earlier ++ later = past at course
  induction course generalizing later with
  | start =>
    obtain ⟨rfl, rfl⟩ := List.append_eq_nil_iff.mp eq
    exact ⟨{}, .start, Nat.le_refl _, by simp [registrations]⟩
  | @extend past s s' action effects before change ih =>
    rcases List.eq_nil_or_concat later with rfl | ⟨rest, last, rfl⟩
    · rw [List.append_nil] at eq
      exact ⟨s', eq ▸ before.extend change, Nat.le_refl _, by simp [registrations]⟩
    · rw [List.concat_eq_append, ← List.append_assoc] at eq
      obtain ⟨same, at_last⟩ := List.append_inj' eq rfl
      obtain rfl := List.singleton_inj.mp at_last
      obtain ⟨start, course, grown, issued⟩ := ih same
      have step : s.issued ≤ s'.issued ∧
          ∀ record ∈ (Transition.mk action s effects s').registered,
            record.id = settings.ids s.issued := by
        cases change.table with
        | reduced shorter issued =>
          refine ⟨issued, ?_⟩
          simp [Transition.registered_eq_nil shorter]
        | @added new generation dispatches id issued =>
          refine ⟨Nat.le_of_lt (Nat.lt_of_lt_of_eq (Nat.lt_succ_self _) issued.symm), ?_⟩
          intro record registered
          obtain ⟨held, new'⟩ := List.mem_filter.mp registered
          rw [dispatches.pending] at held
          rcases List.mem_cons.mp held with rfl | old
          · exact id
          · exact absurd old (by simpa using new')
      refine ⟨start, course, Nat.le_trans grown step.1, ?_⟩
      intro record registered
      rw [List.concat_eq_append, registrations_append, registrations_singleton] at registered
      rcases List.mem_append.mp registered with old | new
      · exact issued record old
      · exact ⟨s.issued, grown, step.2 record new⟩

end

end Sandbox.Client

import Sandbox.Proofs.Client.Actor

namespace Sandbox.Client

def Ask.budget (settings : Settings) (ask : Ask) : Awaited → Duration
  | .handshake => ask.readiness settings
  | .run => ask.execution settings

structure Transition.Starts (t : Transition) (settings : Settings) (ask : Ask) (record : Record)
    (budget deadline : Duration) : Prop where
  acts : t.action.actor? t.before = some record.caller
  first : record.awaited = .handshake → record.caller = t.before.calls.length
  request : ∃ kind, ask.request? record.awaited = some kind
  dispatches : ∃ generation, t.Dispatches record generation
  granted : budget = ask.budget settings record.awaited
  due : deadline = t.before.now + budget

inductive Started (settings : Settings) (t : Transition) (caller : Nat) (ask : Ask) (wait : Wait) :
    Prop
  | now (starts : t.Starts settings ask (wait.record caller) wait.budget wait.deadline)
  | before {wait' : Wait} (found : t.before.calls[caller]? = some ⟨ask, .waiting wait'⟩)
    (same : wait.record caller = wait'.record caller) (budget : wait.budget = wait'.budget)
    (deadline : wait.deadline = wait'.deadline)

section
variable {settings : Settings} {s s' : State} {action : Action} {effects : List Effect}
  {caller : Nat} {ask : Ask}

theorem phase_of_setPhase {phase phase' : Phase}
    (after : (s.setPhase caller phase).calls[caller]? = some ⟨ask, phase'⟩) : phase = phase' := by
  rw [s.calls_setPhase, if_pos rfl] at after
  obtain ⟨call, found, eq⟩ := Option.map_eq_some_iff.mp after
  cases eq
  rfl

theorem Dispatch.waits {provided : State} {awaited : Awaited} {kind : Request.Kind}
    {budget : Duration} {ask' : Ask} {wait : Wait}
    (dispatch : Dispatch settings provided caller awaited kind budget effects s')
    (found : provided.calls[caller]? = some ⟨ask, .admitted⟩)
    (after : s'.calls[caller]? = some ⟨ask', .waiting wait⟩) :
    ask' = ask ∧ wait.awaited = awaited ∧ wait.budget = budget ∧
      wait.deadline = provided.now + budget ∧ s'.pending = wait.record caller :: provided.pending ∧
      ∃ generation, s'.current? = some generation ∧
        .posted generation ⟨wait.id, kind⟩ (.ok ()) ∈ effects := by
  cases dispatch with
  | @registered live held =>
    have issued : { provided with issued := provided.issued + 1, pending :=
        ⟨settings.ids provided.issued, awaited, caller⟩ :: provided.pending }.calls[caller]? =
        some ⟨ask, .admitted⟩ := found
    cases (setPhase_found issued _).symm.trans after
    exact ⟨rfl, rfl, rfl, rfl, rfl, live.generation, congrArg _ held, List.mem_singleton_self _⟩
  | unposted held cause =>
    obtain ⟨phase, still⟩ :=
      cleared_found (s := { provided with issued := provided.issued + 1 }) found
    cases (setPhase_found still _).symm.trans after

theorem Provision.now {provided : State} (provision : Provision s effects provided) :
    provided.now = s.now := by
  cases provision <;> rfl

theorem Dispatch.starts {provided : State} {awaited : Awaited} {kind : Request.Kind}
    {budget : Duration} {wait : Wait} {ask' : Ask}
    (dispatch : Dispatch settings provided caller awaited kind budget effects s')
    (granted : budget = ask.budget settings awaited)
    (acts : action.actor? s = some caller) (first : awaited = .handshake → caller = s.calls.length)
    (pending : provided.pending = s.pending) (now : provided.now = s.now)
    (found : provided.calls[caller]? = some ⟨ask, .admitted⟩)
    (request : ask.request? awaited = some kind)
    (after : s'.calls[caller]? = some ⟨ask', .waiting wait⟩) (earlier : List Effect) :
    Started settings ⟨action, s, earlier ++ effects, s'⟩ caller ask' wait := by
  obtain ⟨rfl, rfl, rfl, deadline, table, generation, current, posted⟩ :=
    dispatch.waits found after
  apply Started.now
  constructor
  case acts => exact acts
  case first => exact first
  case request => exact ⟨kind, request⟩
  case dispatches =>
    exact ⟨generation, pending ▸ table, current, _, kind, after, request,
      List.mem_append_right _ posted⟩
  case granted => exact granted
  case due => rw [deadline, now]

theorem Change.started (change : Change settings s action effects s') {wait : Wait}
    (after : s'.calls[caller]? = some ⟨ask, .waiting wait⟩) :
    Started settings ⟨action, s, effects, s'⟩ caller ask wait := by
  have kept : s'.calls[caller]? = s.calls[caller]? →
      Started settings ⟨action, s, effects, s'⟩ caller ask wait :=
    fun same => .before (same.symm.trans after) rfl rfl rfl
  by_cases acts : action.actor? s = some caller
  · cases change with
    | sent found ready dispatch =>
      obtain rfl := Option.some.inj acts
      exact dispatch.starts rfl acts nofun rfl rfl found rfl after []
    | pinged provision unready dispatch =>
      obtain rfl := Option.some.inj acts
      obtain ⟨pending, -, calls⟩ := provision.table
      have found := s.calls_opened ‹Ask› s.calls.length
      rw [if_pos rfl, ← calls] at found
      exact dispatch.starts rfl acts (fun _ => rfl) pending provision.now found rfl after _
    | noticed found unexpired unreplied due =>
      obtain rfl := Option.some.inj acts
      cases (setPhase_found found _).symm.trans after
      exact .before found rfl rfl rfl
    | idle => exact kept rfl
    | entered ready =>
      obtain rfl := Option.some.inj acts
      exact absurd (phase_of_setPhase after) resolution_ne_waiting
    | resolved found replied =>
      obtain rfl := Option.some.inj acts
      exact absurd (phase_of_setPhase after) resolution_ne_waiting
    | cancelled | refused | lapsed | overran | uncreated | unwarmed =>
      obtain rfl := Option.some.inj acts
      exact nomatch phase_of_setPhase after
    | _ => cases acts
  · rcases change.untouched acts with same | ⟨record, held, left, own, reply, told⟩
    · exact kept same
    · rw [told] at after
      obtain ⟨⟨ask', phase⟩, found, eq⟩ := Option.map_eq_some_iff.mp after
      cases phase with
      | waiting wait' =>
        cases eq
        exact .before found rfl rfl rfl
      | _ => simp [Call.given, Phase.given] at eq

end

section
variable {settings : Settings} {past : List Transition} {s : State} {caller : Nat} {ask : Ask}

theorem Course.budget (course : Course settings past s) {wait : Wait}
    (found : s.calls[caller]? = some ⟨ask, .waiting wait⟩) :
    wait.budget = ask.budget settings wait.awaited := by
  induction course generalizing wait with
  | start => simp at found
  | extend earlier change ih =>
    cases change.started found with
    | now starts => exact starts.granted
    | before found' same budget deadline =>
      rw [budget, ih found', show wait.awaited = _ from congrArg Record.awaited same]
      rfl

def Transition.Holds (t : Transition) (record : Record) : Prop :=
  record ∈ t.before.pending ∧ record ∈ t.after.pending

theorem Course.started (course : Course settings past s)
    (distinct : Function.Injective settings.ids) {wait : Wait}
    (found : s.calls[caller]? = some ⟨ask, .waiting wait⟩)
    (held : wait.record caller ∈ s.pending) :
    ∃ earlier t middle, past = earlier ++ t :: middle ∧
      t.Starts settings ask (wait.record caller) wait.budget wait.deadline ∧
      ∀ u ∈ middle, u.Holds (wait.record caller) := by
  induction course generalizing wait with
  | start => simp at found
  | @extend past s s' action effects before change ih =>
    cases change.started found with
    | now starts => exact ⟨past, _, [], rfl, starts, nofun⟩
    | @before wait' found' same budget deadline =>
      have known : wait.record caller ∈ registrations past := by
        rw [same]
        exact (before.linked distinct).waits caller ask wait' found'
      have held' : wait.record caller ∈ s.pending := by
        cases change.table with
        | reduced shorter issued => exact shorter.mem held
        | @added new generation dispatches id issued =>
          rw [show s'.pending = new :: s.pending from dispatches.pending] at held
          rcases List.mem_cons.mp held with rfl | old
          · exact absurd id ((before.orderly distinct).fresh distinct known)
          · exact old
      obtain ⟨earlier, t, middle, rfl, starts, holds⟩ := ih found' (same ▸ held')
      rw [← same, ← budget, ← deadline] at starts
      refine ⟨earlier, t, middle ++ [⟨action, s, effects, s'⟩], by simp, starts, ?_⟩
      intro u member
      rcases List.mem_append.mp member with old | last
      · exact same ▸ holds u old
      · obtain rfl := List.mem_singleton.mp last
        exact ⟨held', held⟩

end

end Sandbox.Client

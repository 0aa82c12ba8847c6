import Sandbox.Proofs.Client.Isolation

namespace Sandbox.Client

theorem resolution_ne_waiting {ask : Ask} {awaited : Awaited} {reply : Except Failure Reply}
    {wait : Wait} : resolution ask awaited reply ≠ .waiting wait := by
  intro eq
  have := resolution_cases ask awaited reply
  simp [eq] at this

def Effect.cause? : Effect → Option Failure
  | .created _ (.error cause) | .posted _ _ (.error cause) => some cause
  | _ => none

def State.Admits (s : State) (caller : Nat) (ask : Ask) : Prop :=
  caller = s.calls.length ∨ s.calls[caller]? = some ⟨ask, .admitted⟩

inductive Turn (s : State) (caller : Nat) (ask : Ask) (effects : List Effect) : Phase → Prop
  | cancelled {phase : Phase} (found : s.calls[caller]? = some ⟨ask, phase⟩)
    (active : phase.isActive = true) : Turn s caller ask effects .cancelled
  | refused (admits : s.Admits caller ask) :
    Turn s caller ask effects (.finished (.error .notReady))
  | failed {cause : Failure} {effect : Effect} (admits : s.Admits caller ask)
    (member : effect ∈ effects) (failure : effect.cause? = some cause) :
    Turn s caller ask effects (.finished (.error cause))
  | entered (admits : s.Admits caller ask) :
    Turn s caller ask effects (resolution ask .handshake (.ok .ready))
  | dispatched {wait : Wait} (admits : s.Admits caller ask) (unreplied : wait.reply = none)
    (unexpired : wait.expired = false) : Turn s caller ask effects (.waiting wait)
  | noticed {wait : Wait} (found : s.calls[caller]? = some ⟨ask, .waiting wait⟩)
    (due : wait.deadline ≤ s.now) :
    Turn s caller ask effects (.waiting { wait with expired := true })
  | replied {wait : Wait} {reply : Except Failure Reply}
    (found : s.calls[caller]? = some ⟨ask, .waiting wait⟩) (replied : Replied s wait reply) :
    Turn s caller ask effects (resolution ask wait.awaited reply)
  | timed {wait : Wait} {record : Record} (found : s.calls[caller]? = some ⟨ask, .waiting wait⟩)
    (expired : wait.expired = true) (held : s.record? wait.id = some record) :
    Turn s caller ask effects (resolution ask wait.awaited
      (Removal.outcome ⟨wait.record caller, .timer wait.budget⟩))

section
variable {settings : Settings} {s s' : State} {action : Action} {effects : List Effect}

theorem State.not_admits {caller : Nat} {call : Call} (found : s.calls[caller]? = some call)
    (other : call.phase ≠ .admitted) {ask : Ask} : ¬s.Admits caller ask := by
  rintro (rfl | admitted)
  · simp at found
  · cases found.symm.trans admitted
    exact other rfl

theorem Turn.not_ended {caller : Nat} {ask' : Ask} {call : Call} {phase : Phase}
    (found : s.calls[caller]? = some call) (ended : call.phase.isActive = false) :
    ¬Turn s caller ask' effects phase := by
  have idle : ¬s.Admits caller ask' := by
    refine State.not_admits found fun admitted => ?_
    rw [admitted] at ended
    cases ended
  have active : ∀ {other : Phase}, s.calls[caller]? = some ⟨ask', other⟩ → other.isActive = false := by
    intro other found'
    cases found.symm.trans found'
    exact ended
  intro turn
  cases turn with
  | cancelled found' acts => exact nomatch acts.symm.trans (active found')
  | refused admits | failed admits | entered admits | dispatched admits => exact idle admits
  | noticed found' | replied found' | timed found' => exact nomatch active found'

theorem Turn.ask_eq {caller : Nat} {ask : Ask} {call : Call} {phase : Phase}
    (turn : Turn s caller ask effects phase) (found : s.calls[caller]? = some call) :
    call.ask = ask := by
  have admitted : s.Admits caller ask → call.ask = ask := by
    rintro (rfl | found')
    · simp at found
    · cases found.symm.trans found'
      rfl
  cases turn with
  | refused admits | failed admits | entered admits | dispatched admits => exact admitted admits
  | cancelled found' | noticed found' | replied found' | timed found' =>
    cases found.symm.trans found'
    rfl

theorem Dispatch.turn {provided : State} {caller : Nat} {awaited : Awaited} {kind : Request.Kind}
    {budget : Duration} {ask : Ask}
    (dispatch : Dispatch settings provided caller awaited kind budget effects s')
    (admits : s.Admits caller ask) (found : provided.calls[caller]? = some ⟨ask, .admitted⟩)
    (earlier : List Effect) : ∃ phase, s'.calls[caller]? = some ⟨ask, phase⟩ ∧
      Turn s caller ask (earlier ++ effects) phase := by
  cases dispatch with
  | @registered live held =>
    have issued : { provided with issued := provided.issued + 1, pending :=
        ⟨settings.ids provided.issued, awaited, caller⟩ :: provided.pending }.calls[caller]? =
        some ⟨ask, .admitted⟩ := found
    exact ⟨_, setPhase_found issued _, .dispatched admits rfl rfl⟩
  | @unposted live held cause =>
    have failed : (.posted live.generation ⟨settings.ids provided.issued, kind⟩ (.error cause)) ∈
        earlier ++ [.posted live.generation ⟨settings.ids provided.issued, kind⟩ (.error cause),
          .destroyed live.generation] := by simp
    have issued : { provided with issued := provided.issued + 1 }.calls[caller]? =
        some ⟨ask, .admitted⟩ := found
    obtain ⟨phase, still⟩ := cleared_found issued
    exact ⟨_, setPhase_found still _, .failed admits failed rfl⟩

theorem Change.turn (change : Change settings s action effects s') {caller : Nat}
    (acts : action.actor? s = some caller) : s' = s ∨ ∃ ask phase,
      s'.calls[caller]? = some ⟨ask, phase⟩ ∧ Turn s caller ask effects phase := by
  have opened : ∀ ask, (s.opened ask).calls[s.calls.length]? = some ⟨ask, .admitted⟩ := by
    intro ask
    rw [s.calls_opened, if_pos rfl]
  have begun : ∀ {ask : Ask} {phase : Phase} {provided : State}, provided.calls = (s.opened ask).calls →
      (provided.setPhase s.calls.length phase).calls[s.calls.length]? = some ⟨ask, phase⟩ := by
    intro ask phase provided calls
    exact setPhase_found (calls ▸ opened ask) _
  cases change with
  | idle => exact .inl rfl
  | cancelled found active =>
    obtain rfl := Option.some.inj acts
    obtain ⟨⟨ask, phase⟩, held, rfl⟩ := Option.map_eq_some_iff.mp found
    exact .inr ⟨ask, _, setPhase_found held _, .cancelled held active⟩
  | refused found unready =>
    obtain rfl := Option.some.inj acts
    exact .inr ⟨_, _, setPhase_found found _, .refused (.inr found)⟩
  | sent found ready dispatch =>
    obtain rfl := Option.some.inj acts
    exact .inr ⟨_, dispatch.turn (.inr found) found []⟩
  | noticed found unexpired unreplied due =>
    obtain rfl := Option.some.inj acts
    exact .inr ⟨_, _, setPhase_found found _, .noticed found due⟩
  | resolved found replied =>
    obtain rfl := Option.some.inj acts
    exact .inr ⟨_, _, setPhase_found found _, .replied found replied⟩
  | @lapsed caller ask wait record found expired held handshake =>
    obtain rfl := Option.some.inj acts
    have timed : Turn s caller ask [] _ := .timed found expired held
    rw [Removal.outcome, show (wait.record caller).awaited = _ from handshake, handshake] at timed
    exact .inr ⟨_, _, setPhase_found (s := s.removeRecord wait.id) found _, timed⟩
  | @overran caller ask wait record found expired held run =>
    obtain rfl := Option.some.inj acts
    have timed : Turn s caller ask s.teardown _ := .timed found expired held
    rw [Removal.outcome, show (wait.record caller).awaited = _ from run, run] at timed
    obtain ⟨phase, still⟩ := cleared_found (s := s.removeRecord wait.id) found
    exact .inr ⟨_, _, setPhase_found still _, timed⟩
  | uncreated absent cause =>
    obtain rfl := Option.some.inj acts
    exact .inr ⟨_, _, begun rfl, .failed (.inl rfl) (List.mem_cons_self ..) rfl⟩
  | unwarmed absent cause =>
    obtain rfl := Option.some.inj acts
    exact .inr ⟨_, _, begun rfl,
      .failed (.inl rfl) (List.mem_cons_of_mem _ (List.mem_cons_self ..)) rfl⟩
  | entered ready =>
    obtain rfl := Option.some.inj acts
    exact .inr ⟨_, _, begun rfl, .entered (.inl rfl)⟩
  | pinged provision unready dispatch =>
    obtain rfl := Option.some.inj acts
    obtain ⟨pending, issued, calls⟩ := provision.table
    exact .inr ⟨_, dispatch.turn (.inl rfl) (calls ▸ opened _) _⟩
  | _ => cases acts

theorem Change.asks (change : Change settings s action effects s') {caller : Nat} {ask : Ask}
    {phase : Phase} (found : s.calls[caller]? = some ⟨ask, phase⟩) :
    ∃ phase', s'.calls[caller]? = some ⟨ask, phase'⟩ := by
  by_cases acts : action.actor? s = some caller
  · rcases change.turn acts with rfl | ⟨ask', phase', after, turn⟩
    · exact ⟨phase, found⟩
    · obtain rfl := turn.ask_eq found
      exact ⟨phase', after⟩
  · rcases change.untouched acts with same | ⟨record, held, left, own, reply, told⟩
    · exact ⟨phase, same.trans found⟩
    · rw [told, found]
      exact ⟨_, rfl⟩

end

end Sandbox.Client

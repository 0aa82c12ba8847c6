import Sandbox.Proofs.Client.Generation

namespace Sandbox.Client

def Action.actor? (s : State) : Action → Option Nat
  | .begin _ => some s.calls.length
  | .proceed caller | .cancel caller => some caller
  | .event _ _ | .reset | .advance _ | .drop => none

def Untouched (s s' : State) (i : Nat) : Prop :=
  s'.calls[i]? = s.calls[i]? ∨
    ∃ record ∈ s.pending, record ∉ s'.pending ∧ record.caller = i ∧
      ∃ reply, s'.calls[i]? = s.calls[i]?.map (Call.given reply)

theorem untouched_cleared (s : State) (i : Nat) : Untouched s s.cleared i := by
  rw [Untouched, s.calls_cleared]
  split
  · rename_i among
    obtain ⟨record, held, same⟩ := List.mem_map.mp among
    exact .inr ⟨record, held, by simp [cleared_pending], same, _, rfl⟩
  · exact .inl rfl

theorem calls_setPhase_of_ne {s : State} {caller i : Nat} (other : i ≠ caller) (phase : Phase) :
    (s.setPhase caller phase).calls[i]? = s.calls[i]? := by
  rw [s.calls_setPhase, if_neg other]

theorem setPhase_found {s : State} {caller : Nat} {ask : Ask} {before : Phase}
    (found : s.calls[caller]? = some ⟨ask, before⟩) (after : Phase) :
    (s.setPhase caller after).calls[caller]? = some ⟨ask, after⟩ := by
  rw [s.calls_setPhase, if_pos rfl, found]
  rfl

theorem cleared_found {s : State} {caller : Nat} {ask : Ask} {before : Phase}
    (found : s.calls[caller]? = some ⟨ask, before⟩) :
    ∃ after, s.cleared.calls[caller]? = some ⟨ask, after⟩ := by
  rw [s.calls_cleared, found]
  split <;> exact ⟨_, rfl⟩

theorem calls_opened_of_ne {s : State} {i : Nat} (other : i ≠ s.calls.length) (ask : Ask) :
    (s.opened ask).calls[i]? = s.calls[i]? := by
  rw [s.calls_opened, if_neg other]

theorem Dispatch.untouched {settings : Settings} {s s' : State} {caller : Nat} {awaited : Awaited}
    {kind : Request.Kind} {budget : Duration} {effects : List Effect} {i : Nat}
    (dispatch : Dispatch settings s caller awaited kind budget effects s') (other : i ≠ caller) :
    Untouched s s' i := by
  cases dispatch with
  | registered held => exact .inl (calls_setPhase_of_ne other _)
  | unposted held cause =>
    have cleared := untouched_cleared { s with issued := s.issued + 1 } i
    rw [Untouched, State.finish, calls_setPhase_of_ne other]
    exact cleared

theorem Change.untouched {settings : Settings} {s s' : State} {action : Action}
    {effects : List Effect} (change : Change settings s action effects s') {i : Nat}
    (other : action.actor? s ≠ some i) : Untouched s s' i := by
  replace other : ∀ caller, action.actor? s = some caller → i ≠ caller := by
    rintro caller acts rfl
    exact other acts
  cases change with
  | idle | advanced span => exact .inl rfl
  | cancelled found active => exact .inl (calls_setPhase_of_ne (other _ rfl) _)
  | reset | crashed current => exact untouched_cleared s i
  | dropped => exact untouched_cleared s i
  | @answered generation response record current found survives =>
    have held := List.mem_of_find?_eq_some found
    rw [Untouched, State.calls_settle, State.settle_eq]
    split
    · rename_i own
      exact .inr ⟨record, held, by simp [State.removeRecord, List.find?_some found], own.symm, _, rfl⟩
    · exact .inl rfl
  | @failed generation id message record current found handshake =>
    have held := List.mem_of_find?_eq_some found
    rw [Untouched, State.calls_cleared, State.calls_settle, settle_pending, cleared_pending]
    by_cases own : i = record.caller
    · refine .inr ⟨record, held, by simp, own.symm, ?_⟩
      rw [if_pos own]
      split
      · exact ⟨.error .resetInterrupted, by
          simp [Call.given_given, Function.comp_def, State.removeRecord]⟩
      · exact ⟨_, rfl⟩
    · rw [if_neg own]
      split
      · rename_i among
        obtain ⟨other, rest, same⟩ := List.mem_map.mp among
        exact .inr ⟨other, (List.mem_filter.mp rest).1, by simp, same, _, rfl⟩
      · exact .inl rfl
  | refused found unready => exact .inl (calls_setPhase_of_ne (other _ rfl) _)
  | sent found ready dispatch => exact dispatch.untouched (other _ rfl)
  | noticed found unexpired unreplied due => exact .inl (calls_setPhase_of_ne (other _ rfl) _)
  | resolved found replied => exact .inl (calls_setPhase_of_ne (other _ rfl) _)
  | lapsed found expired held handshake => exact .inl (calls_setPhase_of_ne (other _ rfl) _)
  | @overran caller ask wait record found expired held run =>
    rw [Untouched, State.finish, calls_setPhase_of_ne (other _ rfl)]
    rcases untouched_cleared (s.removeRecord wait.id) i with same | ⟨record, held, -, own, told⟩
    · exact .inl same
    · refine .inr ⟨record, (List.mem_filter.mp held).1, ?_, own, told⟩
      simp [State.setPhase, cleared_pending]
  | uncreated absent cause =>
    exact .inl ((calls_setPhase_of_ne (other _ rfl) _).trans (calls_opened_of_ne (other _ rfl) _))
  | unwarmed absent cause =>
    exact .inl ((calls_setPhase_of_ne (other _ rfl) _).trans (calls_opened_of_ne (other _ rfl) _))
  | entered ready =>
    exact .inl ((calls_setPhase_of_ne (other _ rfl) _).trans (calls_opened_of_ne (other _ rfl) _))
  | pinged provision unready dispatch =>
    obtain ⟨pending, issued, calls⟩ := provision.table
    have touched := dispatch.untouched (other _ rfl)
    rw [Untouched, calls, calls_opened_of_ne (other _ rfl), pending] at touched
    exact touched

end Sandbox.Client

import Sandbox.Proofs.Client.Settlement

namespace Sandbox.Client

structure Transition.Concludes (t : Transition) (caller : Nat) (ask : Ask)
    (result : Except Failure (Option RunOutput)) : Prop where
  acts : t.action.actor? t.before = some caller
  before : t.before.calls[caller]? ≠ some ⟨ask, .finished result⟩
  after : t.after.calls[caller]? = some ⟨ask, .finished result⟩

inductive Ending (past : List Transition) (caller : Nat) (ask : Ask) :
    Except Failure (Option RunOutput) → Prop
  | removed {removal : Removal} {result : Except Failure (Option RunOutput)}
    (removed : removal ∈ removals past) (own : removal.record.caller = caller)
    (leads : resolution ask removal.record.awaited removal.outcome = .finished result) :
    Ending past caller ask result
  | entered {result : Except Failure (Option RunOutput)}
    (leads : resolution ask .handshake (.ok .ready) = .finished result) :
    Ending past caller ask result
  | refused : Ending past caller ask (.error .notReady)
  | failed {t : Transition} {effect : Effect} {cause : Failure} (member : t ∈ past)
    (happened : effect ∈ t.effects) (failure : effect.cause? = some cause) :
    Ending past caller ask (.error cause)

section
variable {settings : Settings} {past : List Transition} {s : State} {caller : Nat} {ask : Ask}
  {result : Except Failure (Option RunOutput)}

theorem Ending.mono (ending : Ending past caller ask result) (more : List Transition) :
    Ending (past ++ more) caller ask result := by
  cases ending with
  | removed removed own leads =>
    refine .removed ?_ own leads
    rw [removals_append]
    exact List.mem_append_left _ removed
  | entered leads => exact .entered leads
  | refused => exact .refused
  | failed member happened failure => exact .failed (List.mem_append_left _ member) happened failure

theorem Course.concluded (course : Course settings past s)
    (found : s.calls[caller]? = some ⟨ask, .finished result⟩) :
    ∃ earlier t later, past = earlier ++ t :: later ∧ t.Concludes caller ask result := by
  induction course with
  | start => simp at found
  | @extend past s s' action effects earlier change ih =>
    by_cases before : s.calls[caller]? = some ⟨ask, .finished result⟩
    · obtain ⟨first, t, later, rfl, concludes⟩ := ih before
      exact ⟨first, t, later ++ [⟨action, s, effects, s'⟩], by simp, concludes⟩
    · refine ⟨past, ⟨action, s, effects, s'⟩, [], rfl, ?_, before, found⟩
      by_contra other
      rcases change.untouched other with same | ⟨record, held, left, own, reply, told⟩
      · exact before (same.symm.trans found)
      · rw [told] at found
        obtain ⟨⟨ask', phase⟩, before', eq⟩ := Option.map_eq_some_iff.mp found
        cases phase with
        | finished result' =>
          cases eq
          exact before before'
        | _ => simp [Call.given, Phase.given] at eq

theorem Course.returned {s' : State} {action : Action} {effects : List Effect} {wait : Wait}
    (course : Course settings past s) (distinct : Function.Injective settings.ids)
    (change : Change settings s action effects s')
    (waits : s.calls[caller]? = some ⟨ask, .waiting wait⟩)
    (after : s'.calls[caller]? = some ⟨ask, .finished result⟩) :
    ∃ removal ∈ removals (past ++ [⟨action, s, effects, s'⟩]), removal.record.caller = caller ∧
      resolution ask removal.record.awaited removal.outcome = .finished result := by
  obtain ⟨phase, after', returns⟩ := course.returns distinct change waits
  cases after.symm.trans after'
  rcases returns with ⟨wait', waits, -⟩ | cancelled | ⟨removal, removed, same, leads⟩
  · cases waits
  · cases cancelled
  · refine ⟨removal, removed, congrArg Record.caller same, ?_⟩
    rw [show removal.record.awaited = _ from congrArg Record.awaited same]
    exact leads.symm

theorem Course.ending (course : Course settings past s) (distinct : Function.Injective settings.ids)
    (found : s.calls[caller]? = some ⟨ask, .finished result⟩) : Ending past caller ask result := by
  obtain ⟨earlier, ⟨action, s, effects, s'⟩, later, rfl, acts, unfinished, after⟩ :=
    course.concluded found
  obtain ⟨before, change⟩ := course.split
  dsimp only at acts unfinished after before change
  rw [List.append_cons]
  refine Ending.mono ?_ later
  have waited : ∀ {wait : Wait}, s.calls[caller]? = some ⟨ask, .waiting wait⟩ →
      Ending (earlier ++ [⟨action, s, effects, s'⟩]) caller ask result := by
    intro wait waits
    obtain ⟨removal, removed, own, leads⟩ := before.returned distinct change waits after
    exact .removed removed own leads
  rcases change.turn acts with rfl | ⟨ask', phase, after', turn⟩
  · exact absurd after unfinished
  cases after.symm.trans after'
  generalize eq : Phase.finished result = phase at turn
  cases turn with
  | refused admits =>
    cases eq
    exact .refused
  | failed admits member failure =>
    cases eq
    exact .failed (List.mem_append_right _ (List.mem_singleton_self _)) member failure
  | entered admits => exact .entered eq.symm
  | replied waits replied => exact waited waits
  | timed waits expired held => exact waited waits
  | _ => cases eq

end

section
variable {code : String} {budgets : Option Budgets} {removal : Removal}

theorem Removal.of_output {streams : Option RunOutput}
    (leads : resolution (.run code budgets) removal.record.awaited removal.outcome =
      .finished (.ok streams)) :
    removal.record.awaited = .run ∧ ∃ stdout stderr,
      removal.remover = .response (.result stdout stderr) ∧ streams = some ⟨stdout, stderr⟩ := by
  obtain ⟨⟨id, awaited, caller⟩, kind | budget | _⟩ := removal
  · cases awaited <;> cases kind <;> simp_all [Removal.outcome, answer, resolution]
  · simp [Removal.outcome, resolution] at leads
  · simp [Removal.outcome, resolution] at leads

theorem Removal.of_failure {message : String}
    (leads : resolution (.run code budgets) removal.record.awaited removal.outcome =
      .finished (.error (.executionFailure message))) :
    removal.record.awaited = .run ∧ removal.remover = .response (.failure message) := by
  obtain ⟨⟨id, awaited, caller⟩, kind | budget | _⟩ := removal
  · cases awaited <;> cases kind <;> simp_all [Removal.outcome, answer, resolution]
  · cases awaited <;> simp [Removal.outcome, resolution] at leads
  · simp [Removal.outcome, resolution] at leads

theorem Course.answered {settings : Settings} {past : List Transition} {s : State}
    (course : Course settings past s) (distinct : Function.Injective settings.ids)
    {record : Record} {kind : Response.Kind} (removed : ⟨record, .response kind⟩ ∈ removals past) :
    ∃ t ∈ past, ∃ generation, t.action = .event generation (.response ⟨record.id, kind⟩) ∧
      DispatchedOn past record generation := by
  obtain ⟨t, member, now⟩ := List.mem_flatMap.mp removed
  obtain ⟨earlier, later, rfl⟩ := List.append_of_mem member
  obtain ⟨before, change⟩ := course.split
  cases before.explained distinct change now with
  | @response _ _ generation action current own =>
    exact ⟨t, member, generation, action, ((own generation).mpr rfl).mono _⟩

end

end Sandbox.Client

import Sandbox.Proofs.Client.Ending
import Sandbox.Proofs.Context.Host

namespace Sandbox.Context

open Client (Course DispatchedOn OnlyOn Record Removal Snippet registrations removals snippets)
open Runner (Answers Execution responseKind?)

def Deed.id? (deed : Deed) : Option CorrelationId :=
  match deed.task with
  | some (.answer request) => some request.id
  | _ => none

namespace Host

variable {σ : Type}

def deedsOf (h : Host σ) (caller : Nat) : List Deed :=
  h.house.deeds.filter fun deed =>
    (registrations h.history).any fun record => record.caller = caller ∧ deed.id? = some record.id

structure Ran (h : Host σ) (caller : Nat) (code : String) (deed : Deed) : Prop where
  only : h.deedsOf caller = [deed]
  snippet : deed.execution.code = code
  posted : ∃ record ∈ registrations h.history, record.caller = caller ∧ record.awaited = .run ∧
    deed.task = some (.answer ⟨record.id, .run code⟩) ∧ OnlyOn h.history record deed.generation
  started : ∃ station, h.house.stations deed.generation = some station ∧
    station.runner.outcome = some (.ok deed.execution.engine)

end Host

theorem snippet_of_sent {history : List Client.Transition} {generation : Nat} {id : CorrelationId}
    {code : String} (sent : ⟨id, .run code⟩ ∈ Client.sentTo (done history) generation) :
    ⟨generation, id, code⟩ ∈ snippets history := by
  have posted := Client.snippet_of_sentTo sent
  rwa [done, List.filterMap_flatMap] at posted

namespace Host.Coherent

variable {σ : Type} {settings : Client.Settings} {h : Host σ}

theorem sent_once (coherent : Coherent settings h) (distinct : Function.Injective settings.ids)
    (generation : Nat) :
    ((Client.sentTo (done h.history) generation).filterMap Client.snippetId?).Nodup := by
  have once := coherent.course.snippets_once distinct
  have sublist := Client.sentTo_snippets (done h.history) generation
  rw [done, List.filterMap_flatMap] at sublist
  exact once.sublist sublist

structure Owned (h : Host σ) (deed : Deed) (station : Station) (record : Record) : Prop where
  held : h.house.stations deed.generation = some station
  found : ∃ phase, station.runner.calls[deed.caller]? =
    some ⟨.answer ⟨record.id, .run deed.execution.code⟩, phase⟩
  task : deed.task = some (.answer ⟨record.id, .run deed.execution.code⟩)
  posted : ⟨deed.generation, record.id, deed.execution.code⟩ ∈ snippets h.history
  of : Snippet.Of ⟨deed.generation, record.id, deed.execution.code⟩ h.history h.client record

theorem owned (coherent : Coherent settings h) (distinct : Function.Injective settings.ids)
    {deed : Deed} (member : deed ∈ h.house.deeds) :
    ∃ station record, Owned h deed station record := by
  obtain ⟨station, held, task, phase, found, same⟩ := coherent.kept.deeds deed member
  have serves := (coherent.kept.honest _ station held).serves
  have logged : (deed.caller, deed.execution) ∈ h.house.log deed.generation :=
    House.mem_log.mpr ⟨deed, member, rfl, rfl, rfl⟩
  obtain ⟨id, phase', found', -⟩ := serves.accounted.ran _ logged
  cases found.symm.trans found'
  have posted := snippet_of_sent (serves.requested found)
  obtain ⟨record, of⟩ := coherent.course.snippet distinct posted
  obtain rfl : record.id = id := of.id
  exact ⟨station, record, held, ⟨phase, found⟩, same, posted, of⟩

theorem mem_deedsOf (coherent : Coherent settings h) (distinct : Function.Injective settings.ids)
    {caller : Nat} {deed : Deed} {station : Station} {record : Record}
    (owned : Owned h deed station record) :
    deed ∈ h.deedsOf caller ↔ deed ∈ h.house.deeds ∧ record.caller = caller := by
  have id : deed.id? = some record.id := by rw [Deed.id?, owned.task]
  rw [deedsOf, List.mem_filter, id]
  simp only [List.any_eq_true, decide_eq_true_eq, Option.some.injEq]
  refine and_congr_right fun _ => ⟨?_, ?_⟩
  · rintro ⟨other, registered, own, same⟩
    obtain rfl := (coherent.course.orderly distinct).eq_of_id owned.of.registered registered same
    exact own
  · exact fun own => ⟨record, owned.of.registered, own, rfl⟩

theorem same_call (coherent : Coherent settings h) (distinct : Function.Injective settings.ids)
    {caller : Nat} {a b : Deed} (mine : a ∈ h.deedsOf caller) (mine' : b ∈ h.deedsOf caller) :
    a.generation = b.generation ∧ a.caller = b.caller := by
  obtain ⟨station, record, owned⟩ := coherent.owned distinct (List.mem_filter.mp mine).1
  obtain ⟨station', record', owned'⟩ := coherent.owned distinct (List.mem_filter.mp mine').1
  have own := ((coherent.mem_deedsOf distinct owned).mp mine).2
  have own' := ((coherent.mem_deedsOf distinct owned').mp mine').2
  obtain rfl := coherent.course.run_once distinct owned.of.registered owned'.of.registered
    owned.of.run owned'.of.run (own.trans own'.symm)
  have same := List.inj_on_of_nodup_map (coherent.course.snippets_once distinct) owned.posted
    owned'.posted rfl
  obtain ⟨generation, -, code⟩ := Snippet.mk.inj same
  have held := owned.held
  rw [generation, owned'.held] at held
  obtain rfl := Option.some.inj held
  obtain ⟨phase, found⟩ := owned.found
  obtain ⟨phase', found'⟩ := owned'.found
  rw [← code] at found'
  have serves := (coherent.kept.honest _ station' owned'.held).serves
  exact ⟨generation, serves.call_once _ (coherent.sent_once distinct _) found found' rfl⟩

theorem deedsOf_length (coherent : Coherent settings h)
    (distinct : Function.Injective settings.ids) (caller : Nat) :
    (h.deedsOf caller).length ≤ 1 := by
  cases deeds : h.deedsOf caller with
  | nil => exact Nat.zero_le 1
  | cons first rest =>
    cases rest with
    | nil => exact Nat.le_refl 1
    | cons second rest =>
      have mine : ∀ deed ∈ first :: second :: rest, deed ∈ h.deedsOf caller :=
        fun deed member => deeds ▸ member
      obtain ⟨generation, call⟩ := coherent.same_call distinct
        (mine first (by simp)) (mine second (by simp))
      obtain ⟨station, record, owned⟩ := coherent.owned distinct
        (List.mem_filter.mp (mine first (by simp))).1
      have once := (coherent.kept.honest _ station owned.held).serves.accounted.once
      have pair : [first, second].Sublist
          (h.house.deeds.filter (·.generation = first.generation)) := by
        have sublist : (first :: second :: rest).Sublist h.house.deeds :=
          deeds ▸ List.filter_sublist
        have both := (sublist.filter (·.generation = first.generation))
        simp only [List.filter_cons, decide_true, if_true, ← generation] at both
        exact (((List.nil_sublist _).cons_cons _).cons_cons _).trans both
      rw [House.log, List.map_map] at once
      have twice := once.sublist (pair.map _)
      simp [call] at twice

theorem deedsOf_eq (coherent : Coherent settings h) (distinct : Function.Injective settings.ids)
    {caller : Nat} {deed : Deed} (mine : deed ∈ h.deedsOf caller) : h.deedsOf caller = [deed] := by
  have one := Nat.le_antisymm (coherent.deedsOf_length distinct caller)
    (List.length_pos_of_mem mine)
  obtain ⟨only, eq⟩ := List.length_eq_one_iff.mp one
  rw [eq] at mine ⊢
  rw [List.mem_singleton.mp mine]

theorem started (coherent : Coherent settings h) (distinct : Function.Injective settings.ids)
    {snippet : Snippet} (posted : snippet ∈ snippets h.history) {station : Station}
    (held : h.house.stations snippet.generation = some station) :
    ∃ engine, station.runner.outcome = some (.ok engine) := by
  obtain ⟨record, of⟩ := coherent.course.snippet distinct posted
  obtain ⟨t, member, id, said⟩ := of.ready
  have heard : (snippet.generation, ⟨id, .ready⟩) ∈ told h.history :=
    List.mem_filterMap.mpr ⟨t, member, by rw [said]; rfl⟩
  obtain ⟨station', held', caller, task, found⟩ := coherent.kept.told _ heard
  obtain rfl := Option.some.inj (held.symm.trans held')
  -- Only a bootstrap that succeeded lets a runner say that it is ready.
  have accounted := (coherent.kept.honest _ station held).serves.accounted
  have answers := accounted.answers caller task _ found
  cases answers with
  | ready started => exact ⟨_, started⟩
  | @executed _ execution _ started logged returned => exact ⟨_, started⟩

theorem ran (coherent : Coherent settings h) (distinct : Function.Injective settings.ids)
    {caller : Nat} {code : String} {budgets : Option Budgets} {phase : Client.Phase}
    (found : h.client.calls[caller]? = some ⟨.run code budgets, phase⟩) {record : Record}
    (own : record.caller = caller) (run : record.awaited = .run) {kind : Response.Kind}
    (removed : ⟨record, .response kind⟩ ∈ removals h.history) (other : kind ≠ .ready) :
    ∃ deed, h.Ran caller code deed ∧ responseKind? deed.execution.verdict = some kind := by
  obtain ⟨t, member, generation, said, dispatched⟩ := coherent.course.answered distinct removed
  have heard : (generation, ⟨record.id, kind⟩) ∈ told h.history :=
    List.mem_filterMap.mpr ⟨t, member, by rw [said]; rfl⟩
  obtain ⟨station, held, serving, task, answered⟩ := coherent.kept.told _ heard
  obtain ⟨code', posted⟩ := dispatched.snippet run
  obtain ⟨engine, started⟩ := coherent.started distinct posted held
  have accounted := (coherent.kept.honest _ station held).serves.accounted
  have answers := accounted.answers serving task _ answered
  cases answers with
  | notReady failed => exact nomatch started.symm.trans failed
  | ready => exact absurd rfl other
  | @executed _ execution _ started logged returned =>
    obtain ⟨deed, member, rfl, rfl, rfl⟩ := House.mem_log.mp logged
    obtain ⟨station', record', owned⟩ := coherent.owned distinct member
    obtain rfl := Option.some.inj (held.symm.trans owned.held)
    obtain ⟨phase', found'⟩ := owned.found
    have same_id : record.id = record'.id := by
      have same := Option.some.inj (answered.symm.trans found')
      simp only [Runner.Call.mk.injEq, Runner.Task.answer.injEq, Request.mk.injEq] at same
      exact same.1.1
    obtain ⟨t', member', dispatches⟩ := dispatched
    have registered : record ∈ registrations h.history :=
      List.mem_flatMap.mpr ⟨t', member', coherent.course.registers distinct member' dispatches⟩
    obtain rfl := (coherent.course.orderly distinct).eq_of_id registered owned.of.registered same_id
    obtain ⟨budgets', phase'', asked⟩ := owned.of.asked
    rw [own, found] at asked
    cases asked
    have mine := (coherent.mem_deedsOf distinct owned).mpr ⟨member, own⟩
    have only := coherent.deedsOf_eq distinct mine
    refine ⟨deed, ⟨only, rfl, ?_, station, held, started⟩, returned⟩
    exact ⟨record, registered, own, run, owned.task,
      coherent.course.dispatched_once distinct owned.of.dispatched⟩

end Host.Coherent

/-- What a run returns is what became of its snippet; every execution is some run's. -/
structure Host.Faithful {σ : Type} (h : Host σ) : Prop where
  output : ∀ (caller : Nat) (code : String) (budgets : Option Budgets) (result : Option RunOutput),
    h.client.calls[caller]? = some ⟨.run code budgets, .finished (.ok result)⟩ →
    ∃ deed streams, h.Ran caller code deed ∧ deed.execution.verdict = .output streams ∧
      result = some ⟨streams.stdout.getD "", streams.stderr.getD ""⟩
  failure : ∀ (caller : Nat) (code : String) (budgets : Option Budgets) (message : String),
    h.client.calls[caller]? =
      some ⟨.run code budgets, .finished (.error (.executionFailure message))⟩ →
    ∃ deed, h.Ran caller code deed ∧ (deed.execution.verdict = .error message ∨
      ∃ payload, deed.execution.verdict = .panic payload ∧
        message = "engine panicked: " ++ payload.message)
  once : ∀ caller, (h.deedsOf caller).length ≤ 1
  owned : ∀ deed ∈ h.house.deeds, ∃ (caller : Nat) (budgets : Option Budgets)
    (phase : Client.Phase), deed ∈ h.deedsOf caller ∧
      h.client.calls[caller]? = some ⟨.run deed.execution.code budgets, phase⟩

namespace Host.Coherent

variable {σ : Type} {settings : Client.Settings} {h : Host σ}

theorem removed (coherent : Coherent settings h) (distinct : Function.Injective settings.ids)
    {caller : Nat} {code : String} {budgets : Option Budgets}
    {result : Except Failure (Option RunOutput)}
    (found : h.client.calls[caller]? = some ⟨.run code budgets, .finished result⟩)
    (told : (∃ streams, result = .ok streams) ∨
      ∃ message, result = .error (.executionFailure message)) :
    ∃ removal ∈ removals h.history, removal.record.caller = caller ∧
      Client.resolution (.run code budgets) removal.record.awaited removal.outcome =
        .finished result := by
  cases coherent.course.ending distinct found with
  | removed removed own leads => exact ⟨_, removed, own, leads⟩
  | entered leads => cases leads
  | refused => simp at told
  | failed member happened failure =>
    obtain ⟨fault, rfl⟩ := coherent.kept.faults _
      (List.mem_flatMap.mpr ⟨_, member, happened⟩) _ failure
    simp at told

theorem faithful (coherent : Coherent settings h) (distinct : Function.Injective settings.ids) :
    h.Faithful := by
  refine ⟨?_, ?_, coherent.deedsOf_length distinct, ?_⟩
  · intro caller code budgets result found
    obtain ⟨removal, removed, own, leads⟩ := coherent.removed distinct found (.inl ⟨_, rfl⟩)
    obtain ⟨run, stdout, stderr, response, rfl⟩ := Removal.of_output leads
    obtain ⟨record, remover⟩ := removal
    dsimp only at response
    subst response
    obtain ⟨deed, ran, returned⟩ := coherent.ran distinct found own run removed nofun
    obtain ⟨streams, verdict, rfl, rfl⟩ := Runner.responseKind?_result returned
    exact ⟨deed, streams, ran, verdict, rfl⟩
  · intro caller code budgets message found
    obtain ⟨removal, removed, own, leads⟩ := coherent.removed distinct found (.inr ⟨_, rfl⟩)
    obtain ⟨run, response⟩ := Removal.of_failure leads
    obtain ⟨record, remover⟩ := removal
    dsimp only at response
    subst response
    obtain ⟨deed, ran, returned⟩ := coherent.ran distinct found own run removed nofun
    exact ⟨deed, ran, Runner.responseKind?_failure returned⟩
  · intro deed member
    obtain ⟨station, record, owned⟩ := coherent.owned distinct member
    obtain ⟨budgets, phase, asked⟩ := owned.of.asked
    exact ⟨record.caller, budgets, phase,
      (coherent.mem_deedsOf distinct owned).mpr ⟨member, rfl⟩, asked⟩

end Host.Coherent

theorem no_cross_talk {σ : Type} (provider : Engine.Provider σ) (budget : Duration)
    (settings : Client.Settings) (distinct : Function.Injective settings.ids) (w : σ)
    (births : Nat → Except String Duration) (moves : List Move) :
    (Host.run provider budget settings { house := { engines := w, births } } moves).Faithful :=
  ((Host.Coherent.start w births).run provider budget moves).faithful distinct

def parrot : Engine.Provider Unit where
  start w _ _ := (⟨some (.published 0), .ok ()⟩, w)
  execute w _ code := (.output ⟨some code, none⟩, w)

def errand : List Move :=
  [.client (.begin (.run "x" none)), .thread 1 .receive, .thread 1 .receive, .thread 1 (.poll 2),
    .thread 1 .forward, .deliver 1, .client (.proceed 0), .client (.proceed 0), .thread 1 .receive,
    .thread 1 (.poll 3), .thread 1 .forward, .deliver 1, .client (.proceed 0)]

def Host.afterErrand : Host Unit :=
  .run parrot ⟨1⟩ Client.counted { house := { engines := (), births := fun _ => .ok ⟨0⟩ } } errand

theorem no_cross_talk_errand : Function.Injective Client.counted.ids ∧
    Host.afterErrand.Faithful ∧
    Host.afterErrand.client.phase? 0 = some (.finished (.ok (some ⟨"x", ""⟩))) :=
  ⟨Client.counted_injective, no_cross_talk parrot ⟨1⟩ Client.counted Client.counted_injective ()
    (fun _ => .ok ⟨0⟩) errand, rfl⟩

end Sandbox.Context

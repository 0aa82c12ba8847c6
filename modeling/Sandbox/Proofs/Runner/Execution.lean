import Sandbox.Runner.Basic

namespace Sandbox.Runner

open Engine

structure Execution where
  engine : Nat
  code : String
  verdict : Verdict

def observed {σ : Type} (provider : Provider σ) : Provider (σ × List Execution) where
  start := fun (w, record) now slot =>
    let (start, w) := provider.start w now slot
    (start, w, record)
  execute := fun (w, record) engine code =>
    let (verdict, w) := provider.execute w engine code
    (verdict, w, record ++ [⟨engine, code, verdict⟩])

theorem responseKind?_result {verdict : Verdict} {stdout stderr : String}
    (returned : responseKind? verdict = some (.result stdout stderr)) :
    ∃ streams, verdict = .output streams ∧ stdout = streams.stdout.getD "" ∧
      stderr = streams.stderr.getD "" := by
  cases verdict with
  | output streams =>
    cases returned
    exact ⟨streams, rfl, rfl, rfl⟩
  | _ => cases returned

theorem responseKind?_failure {verdict : Verdict} {message : String}
    (returned : responseKind? verdict = some (.failure message)) :
    verdict = .error message ∨
      ∃ payload, verdict = .panic payload ∧ message = "engine panicked: " ++ payload.message := by
  cases verdict with
  | error message' =>
    cases returned
    exact .inl rfl
  | panic payload =>
    cases returned
    exact .inr ⟨payload, rfl, rfl⟩
  | _ => cases returned

/-! ## What a poll does -/

inductive Conclusion (outcome : Except String Nat) : Task → List Execution → Option Halt → Phase → Prop
  | warmUp {s : State} (settled : s.outcome = some outcome) :
    Conclusion outcome .warmUp [] none (.finished (.status s.status))
  | notReady {id : CorrelationId} {kind : Request.Kind} {message : String}
    (failed : outcome = .error message) :
    Conclusion outcome (.answer ⟨id, kind⟩) [] none
      (.finished (.response ⟨id, .failure ("runner not ready: " ++ message)⟩))
  | ready {id : CorrelationId} {engine : Nat} (started : outcome = .ok engine) :
    Conclusion outcome (.answer ⟨id, .ping⟩) [] none (.finished (.response ⟨id, .ready⟩))
  | executed {id : CorrelationId} {code : String} {engine : Nat} {verdict : Verdict}
    {kind : Response.Kind} (started : outcome = .ok engine)
    (returned : responseKind? verdict = some kind) :
    Conclusion outcome (.answer ⟨id, .run code⟩) [⟨engine, code, verdict⟩] none
      (.finished (.response ⟨id, kind⟩))
  | halted {id : CorrelationId} {code : String} {engine : Nat} {how : Halt}
    (started : outcome = .ok engine) :
    Conclusion outcome (.answer ⟨id, .run code⟩) [⟨engine, code, .halt how⟩] (some how) .active

inductive Polled (s : State) (caller : Nat) : List Execution → State → Prop
  | waits {s' : State} (calls : s'.calls = s.calls) (outcome : s'.outcome = s.outcome)
    (halted : s'.halted = s.halted) : Polled s caller [] s'
  | concludes {s' : State} {task : Task} {outcome : Except String Nat} {record : List Execution}
    {phase : Phase} (found : s.calls[caller]? = some ⟨task, .active⟩) (running : s.halted = none)
    (settled : s.outcome = none ∨ s.outcome = some outcome) (after : s'.outcome = some outcome)
    (calls : s'.calls = s.calls.modify caller fun call => { call with phase })
    (conclusion : Conclusion outcome task record s'.halted phase) : Polled s caller record s'

theorem Polled.congr {s start s' : State} {caller : Nat} {record : List Execution}
    (polled : Polled start caller record s') (calls : start.calls = s.calls)
    (outcome : start.outcome = s.outcome) (halted : start.halted = s.halted) :
    Polled s caller record s' := by
  cases polled with
  | waits calls' outcome' halted' =>
    exact .waits (calls'.trans calls) (outcome'.trans outcome) (halted'.trans halted)
  | concludes found running settled after calls' conclusion =>
    rw [calls] at found calls'
    rw [outcome] at settled
    exact .concludes found (halted ▸ running) settled after calls' conclusion

theorem polled_enqueue (s : State) (caller : Nat) : Polled s caller [] (enqueue s caller) := by
  rw [enqueue]
  split <;> exact .waits rfl rfl rfl

section
variable {σ : Type} (provider : Provider σ) (budget : Duration)

theorem observed_execute {w w' : σ} {engine : Nat} {code : String} {verdict : Verdict}
    (executed : provider.execute w engine code = (verdict, w')) (record : List Execution) :
    (observed provider).execute (w, record) engine code =
      (verdict, w', record ++ [⟨engine, code, verdict⟩]) := by
  simp only [observed, executed]

theorem conclude_returned {s : State} {w w' : σ} {caller : Nat} {id : CorrelationId}
    {engine : Nat} {code : String} {verdict : Verdict} {kind : Response.Kind}
    (executed : provider.execute w engine code = (verdict, w'))
    (returned : responseKind? verdict = some kind) :
    conclude provider s w caller (.answer ⟨id, .run code⟩) (.ok engine) =
      (s.setPhase caller (.finished (.response ⟨id, kind⟩)), w') := by
  cases verdict with
  | halt how => cases returned
  | output streams => simp only [conclude, executed, returned]
  | error message => simp only [conclude, executed, returned]
  | panic payload => simp only [conclude, executed, returned]

theorem conclude_observed {s : State} (w : σ) {caller : Nat} {task : Task}
    {outcome : Except String Nat} (settled : s.outcome = some outcome) (running : s.halted = none)
    (active : s.calls[caller]? = some ⟨task, .active⟩) :
    ∃ s' w' record phase, conclude (observed provider) s (w, []) caller task outcome =
        (s', w', record) ∧ conclude provider s w caller task outcome = (s', w') ∧
      s'.outcome = s.outcome ∧
      s'.calls = (s.calls.modify caller fun call => { call with phase }) ∧
      Conclusion outcome task record s'.halted phase := by
  have finishes : ∀ record phase, Conclusion outcome task record none phase →
      Conclusion outcome task record (s.setPhase caller phase).halted phase := by
    intro record phase conclusion
    rwa [show (s.setPhase caller phase).halted = none from running]
  rcases task with _ | ⟨id, _ | code⟩ <;> rcases outcome with message | engine
  · exact ⟨_, w, [], _, rfl, rfl, rfl, rfl, finishes _ _ (.warmUp settled)⟩
  · exact ⟨_, w, [], _, rfl, rfl, rfl, rfl, finishes _ _ (.warmUp settled)⟩
  · exact ⟨_, w, [], _, rfl, rfl, rfl, rfl, finishes _ _ (.notReady rfl)⟩
  · exact ⟨_, w, [], _, rfl, rfl, rfl, rfl, finishes _ _ (.ready rfl)⟩
  · exact ⟨_, w, [], _, rfl, rfl, rfl, rfl, finishes _ _ (.notReady rfl)⟩
  · rcases executed : provider.execute w engine code with ⟨verdict, w'⟩
    have ran := observed_execute provider executed []
    cases returned : responseKind? verdict with
    | some kind =>
      exact ⟨_, w', _, _, conclude_returned _ ran returned, conclude_returned _ executed returned,
        rfl, rfl, finishes _ _ (.executed rfl returned)⟩
    | none =>
      cases verdict with
      | halt how =>
        refine ⟨{ s with halted := some how }, w', _, .active, ?_, ?_, rfl, ?_, .halted rfl⟩
        · simp only [conclude, ran]
          rfl
        · simp only [conclude, executed]
        · apply List.ext_getElem?
          intro i
          rw [List.getElem?_modify]
          by_cases here : caller = i
          · subst here
            simp [active]
          · simp [here]
      | _ => cases returned

theorem endBootstrap_observed {s : State} (w : σ) {caller : Nat} {task : Task}
    (outcome : Except String Nat) (unsettled : s.outcome = none) (running : s.halted = none)
    (active : s.calls[caller]? = some ⟨task, .active⟩) :
    ∃ s' w' record, endBootstrap (observed provider) s (w, []) caller task outcome =
        (s', w', record) ∧ endBootstrap provider s w caller task outcome = (s', w') ∧
      Polled s caller record s' := by
  obtain ⟨s', w', record, phase, eq, plain, after, calls, conclusion⟩ := conclude_observed provider
    (s := { s with outcome := some outcome, turn := .free, queue := [] }) w rfl running active
  exact ⟨s', w', record, eq, plain, .concludes active running (.inl unsettled) after calls conclusion⟩

theorem attend_observed {s : State} (bootstrap : Bootstrap) (w : σ) {task : Task}
    (unsettled : s.outcome = none) (running : s.halted = none)
    (active : s.calls[bootstrap.caller]? = some ⟨task, .active⟩) :
    ∃ s' w' record, attend (observed provider) budget s (w, []) bootstrap task =
        (s', w', record) ∧ attend provider budget s w bootstrap task = (s', w') ∧
      Polled s bootstrap.caller record s' := by
  unfold attend
  split
  · exact endBootstrap_observed provider w _ unsettled running active
  · split
    · exact endBootstrap_observed provider w _ unsettled running active
    · exact ⟨_, w, [], rfl, rfl, .waits rfl rfl rfl⟩

theorem launch_observed {s : State} (w : σ) {caller : Nat} {task : Task}
    (unsettled : s.outcome = none) (running : s.halted = none)
    (active : s.calls[caller]? = some ⟨task, .active⟩) :
    ∃ s' w' record, launch (observed provider) budget s (w, []) caller task =
        (s', w', record) ∧ launch provider budget s w caller task = (s', w') ∧
      Polled s caller record s' := by
  rcases started : provider.start w s.now s.slots with ⟨start, w₁⟩
  have starts : (observed provider).start (w, []) s.now s.slots = (start, w₁, []) := by
    simp only [observed, started]
  simp only [launch, starts, started]
  split
  · obtain ⟨s', w', record, eq, plain, polled⟩ := endBootstrap_observed provider
      (s := { s with slots := s.slots + 1 }) w₁ _ unsettled running active
    exact ⟨s', w', record, eq, plain, polled.congr rfl rfl rfl⟩
  · obtain ⟨s', w', record, eq, plain, polled⟩ := attend_observed provider budget
      (s := { s with slots := s.slots + 1 }) ⟨caller, s.slots, s.now + budget, start.mail⟩ w₁
      unsettled running active
    exact ⟨s', w', record, eq, plain, polled.congr rfl rfl rfl⟩

theorem poll_observed (s : State) (w : σ) (caller : Nat) :
    ∃ s' w' record, poll (observed provider) budget s (w, []) caller = (s', w', record) ∧
      poll provider budget s w caller = (s', w') ∧ Polled s caller record s' := by
  unfold poll
  split
  · rename_i task running active
    split
    · rename_i outcome settled
      obtain ⟨s', w', record, phase, eq, plain, after, calls, conclusion⟩ :=
        conclude_observed provider w settled running active
      exact ⟨s', w', record, eq, plain, .concludes active running (.inr settled) (after.trans settled) calls
        conclusion⟩
    · rename_i unsettled turn
      exact launch_observed provider budget w unsettled running active
    · rename_i holder unsettled turn
      split
      · exact launch_observed provider budget w unsettled running active
      · exact ⟨_, w, [], rfl, rfl, polled_enqueue s caller⟩
    · rename_i bootstrap unsettled turn
      split
      · rename_i own
        subst own
        exact attend_observed provider budget bootstrap w unsettled running active
      · exact ⟨_, w, [], rfl, rfl, polled_enqueue s caller⟩
  · exact ⟨s, w, [], rfl, rfl, .waits rfl rfl rfl⟩

end

/-! ## What the record says -/

inductive Answers (s : State) (log : List (Nat × Execution)) (caller : Nat) :
    Task → Response → Prop
  | notReady {id : CorrelationId} {kind : Request.Kind} {message : String}
    (failed : s.outcome = some (.error message)) :
    Answers s log caller (.answer ⟨id, kind⟩) ⟨id, .failure ("runner not ready: " ++ message)⟩
  | ready {id : CorrelationId} {engine : Nat} (started : s.outcome = some (.ok engine)) :
    Answers s log caller (.answer ⟨id, .ping⟩) ⟨id, .ready⟩
  | executed {id : CorrelationId} {execution : Execution} {kind : Response.Kind}
    (started : s.outcome = some (.ok execution.engine)) (logged : (caller, execution) ∈ log)
    (returned : responseKind? execution.verdict = some kind) :
    Answers s log caller (.answer ⟨id, .run execution.code⟩) ⟨id, kind⟩

theorem Answers.later {s s' : State} {log more : List (Nat × Execution)} {caller : Nat}
    {task : Task} {response : Response} (answers : Answers s log caller task response)
    (kept : ∀ outcome, s.outcome = some outcome → s'.outcome = some outcome)
    (grown : log ⊆ more) : Answers s' more caller task response := by
  cases answers with
  | notReady failed => exact .notReady (kept _ failed)
  | ready started => exact .ready (kept _ started)
  | executed started logged returned => exact .executed (kept _ started) (grown logged) returned

/-- An execution belongs to a call for its code, which is answered unless the runner was halted. -/
structure Accounted (log : List (Nat × Execution)) (s : State) : Prop where
  once : (log.map Prod.fst).Nodup
  ran : ∀ entry ∈ log, ∃ id phase,
    s.calls[entry.1]? = some ⟨.answer ⟨id, .run entry.2.code⟩, phase⟩ ∧
      (phase = .active → s.halted ≠ none)
  answers : ∀ caller task response,
    s.calls[caller]? = some ⟨task, .finished (.response response)⟩ →
    Answers s log caller task response

namespace Accounted

variable {log : List (Nat × Execution)} {s s' : State}

theorem congr (accounted : Accounted log s) (calls : s'.calls = s.calls)
    (outcome : s'.outcome = s.outcome) (halted : s'.halted = s.halted) : Accounted log s' := by
  refine ⟨accounted.once, ?_, ?_⟩
  · rw [calls, halted]
    exact accounted.ran
  · intro caller task response found
    rw [calls] at found
    exact (accounted.answers caller task response found).later (fun _ => outcome.trans) (.refl log)

theorem started (accounted : Accounted log s) (task : Task) : Accounted log (s.start task).2 := by
  have old : ∀ (i : Nat) (call : Call), s.calls[i]? = some call →
      (s.start task).2.calls[i]? = some call := by
    intro i call found
    exact (List.getElem?_append_left (List.getElem?_eq_some_iff.mp found).choose).trans found
  refine ⟨accounted.once, ?_, ?_⟩
  · intro entry member
    obtain ⟨id, phase, found, stuck⟩ := accounted.ran entry member
    exact ⟨id, phase, old _ _ found, stuck⟩
  · intro caller task' response found
    rcases Nat.lt_or_ge caller s.calls.length with known | new
    · rw [State.start, List.getElem?_append_left known] at found
      exact (accounted.answers caller task' response found).later (fun _ => id) (.refl log)
    · rw [State.start, List.getElem?_append_right new, List.getElem?_singleton] at found
      split at found <;> simp at found

theorem polled (accounted : Accounted log s) {caller : Nat} {record : List Execution}
    (polled : Polled s caller record s') :
    Accounted (log ++ record.map fun execution => (caller, execution)) s' := by
  cases polled with
  | waits calls outcome halted => simpa using accounted.congr calls outcome halted
  | @concludes _ task outcome _ phase found running settled after calls conclusion =>
    have here : s'.calls[caller]? = some ⟨task, phase⟩ := by
      rw [calls, List.getElem?_modify]
      simp [found]
    have elsewhere : ∀ i, i ≠ caller → s'.calls[i]? = s.calls[i]? := by
      intro i other
      rw [calls, List.getElem?_modify]
      simp [Ne.symm other]
    -- A call that was executed and still goes on has halted the runner.
    have unexecuted : ∀ entry ∈ log, entry.1 ≠ caller := by
      rintro entry member rfl
      obtain ⟨id, phase', found', stuck⟩ := accounted.ran entry member
      cases found.symm.trans found'
      exact stuck rfl running
    have kept : ∀ outcome', s.outcome = some outcome' → s'.outcome = some outcome' := by
      intro outcome' before
      rcases settled with unsettled | same
      · exact nomatch unsettled.symm.trans before
      · exact after.trans (same.symm.trans before)
    generalize halt : s'.halted = halted at conclusion
    refine ⟨?_, ?_, ?_⟩
    · rw [List.map_append]
      refine List.nodup_append.mpr ⟨accounted.once, ?_, ?_⟩
      · cases conclusion <;> simp
      · intro old before new now same
        obtain ⟨entry, member, rfl⟩ := List.mem_map.mp before
        obtain ⟨entry', member', rfl⟩ := List.mem_map.mp now
        obtain ⟨execution, -, rfl⟩ := List.mem_map.mp member'
        exact unexecuted entry member same
    · intro entry member
      rcases List.mem_append.mp member with old | new
      · obtain ⟨id, phase', found', stuck⟩ := accounted.ran entry old
        refine ⟨id, phase', (elsewhere _ (unexecuted entry old)).trans found', ?_⟩
        exact fun active => absurd running (stuck active)
      · obtain ⟨execution, ran, rfl⟩ := List.mem_map.mp new
        cases conclusion with
        | executed started returned =>
          obtain rfl := List.mem_singleton.mp ran
          exact ⟨_, _, here, nofun⟩
        | halted started =>
          obtain rfl := List.mem_singleton.mp ran
          exact ⟨_, _, here, fun _ => by simp [halt]⟩
        | _ => cases ran
    · intro i task' response ended
      by_cases own : i = caller
      · subst own
        cases here.symm.trans ended
        cases conclusion with
        | notReady failed => exact .notReady (failed ▸ after)
        | ready started => exact .ready (started ▸ after)
        | @executed id code engine verdict kind started returned =>
          have logged : (i, Execution.mk engine code verdict) ∈
              log ++ [Execution.mk engine code verdict].map fun execution => (i, execution) := by
            simp
          have same : s'.outcome = some (.ok (Execution.mk engine code verdict).engine) :=
            started ▸ after
          exact .executed same logged returned
      · rw [elsewhere i own] at ended
        exact (accounted.answers i task' response ended).later kept (List.subset_append_left ..)

end Accounted

end Sandbox.Runner

import Sandbox.Proofs.Runner.Execution
import Sandbox.Runner.Service

namespace Sandbox.Runner

def State.Answered (s : State) (response : Response) : Prop :=
  ∃ (caller : Nat) (task : Task), s.calls[caller]? = some ⟨task, .finished (.response response)⟩

def State.Extends (s s' : State) : Prop :=
  ∀ (caller : Nat) (task : Task) (phase : Phase), s.calls[caller]? = some ⟨task, phase⟩ →
    ∃ phase', s'.calls[caller]? = some ⟨task, phase'⟩ ∧
      ∀ result, phase = .finished result → phase' = .finished result

namespace State.Extends

variable {s s' s'' : State}

theorem of_calls (same : s'.calls = s.calls) : s.Extends s' :=
  fun _ _ phase found => ⟨phase, same ▸ found, fun _ => id⟩

theorem refl (s : State) : s.Extends s := of_calls rfl

theorem trans (first : s.Extends s') (second : s'.Extends s'') : s.Extends s'' := by
  intro caller task phase found
  obtain ⟨phase', found', finished⟩ := first caller task phase found
  obtain ⟨phase'', found'', finished'⟩ := second caller task phase' found'
  exact ⟨phase'', found'', fun result ended => finished' result (finished result ended)⟩

theorem answered (extended : s.Extends s') {response : Response}
    (answered : s.Answered response) : s'.Answered response := by
  obtain ⟨caller, task, found⟩ := answered
  obtain ⟨phase, after, finished⟩ := extended caller task _ found
  exact ⟨caller, task, finished _ rfl ▸ after⟩

end State.Extends

theorem Polled.extends {s s' : State} {caller : Nat} {record : List Execution}
    (polled : Polled s caller record s') : s.Extends s' := by
  cases polled with
  | waits calls outcome halted => exact .of_calls calls
  | concludes active running settled after calls conclusion =>
    intro i task phase found
    rw [calls, List.getElem?_modify, found]
    by_cases own : caller = i
    · subst own
      cases active.symm.trans found
      simp
    · simp [own]

theorem State.start_extends (s : State) (task : Task) : s.Extends (s.start task).2 := by
  intro i task' phase found
  refine ⟨phase, ?_, fun _ => id⟩
  exact (List.getElem?_append_left (List.getElem?_eq_some_iff.mp found).choose).trans found

theorem Polled.tasks {s s' : State} {caller : Nat} {record : List Execution}
    (polled : Polled s caller record s') : s'.calls.map Call.task = s.calls.map Call.task := by
  cases polled with
  | waits calls outcome halted => rw [calls]
  | concludes active running settled after calls conclusion =>
    rw [calls]
    apply List.ext_getElem?
    intro i
    rw [List.getElem?_map, List.getElem?_modify, List.getElem?_map]
    by_cases own : caller = i <;> cases s.calls[i]? <;> simp [own]

theorem deliver_calls (s : State) (slot : Nat) (mail : Engine.Mail) :
    (deliver s slot mail).2.calls = s.calls ∧ (deliver s slot mail).2.outcome = s.outcome ∧
      (deliver s slot mail).2.halted = s.halted := by
  rw [deliver]
  split
  · split <;> exact ⟨rfl, rfl, rfl⟩
  · exact ⟨rfl, rfl, rfl⟩

theorem finished_of_answer? {s : State} {caller : Nat} {response : Response}
    (answer : Service.answer? s caller = some response) :
    ∃ task, s.calls[caller]? = some ⟨task, .finished (.response response)⟩ := by
  rw [Service.answer?] at answer
  split at answer
  · rename_i task response' found
    cases answer
    exact ⟨task, found⟩
  · cases answer

theorem answered_of_answer? {s : State} {caller : Nat} {response : Response}
    (answer : Service.answer? s caller = some response) : s.Answered response := by
  obtain ⟨task, found⟩ := finished_of_answer? answer
  exact ⟨caller, task, found⟩

inductive Change (s : State) : List (Nat × Execution) → State → Prop
  | kept {s' : State} (calls : s'.calls = s.calls) (outcome : s'.outcome = s.outcome)
    (halted : s'.halted = s.halted) : Change s [] s'
  | started (task : Task) : Change s [] (s.start task).2
  | cancelled {s' : State} {caller : Nat} {task : Task}
    (found : s.calls[caller]? = some ⟨task, .active⟩)
    (calls : s'.calls = s.calls.modify caller fun call => { call with phase := .cancelled })
    (outcome : s'.outcome = s.outcome) (halted : s'.halted = s.halted) : Change s [] s'
  | polled {s' : State} {caller : Nat} {record : List Execution}
    (polled : Polled s caller record s') :
    Change s (record.map fun execution => (caller, execution)) s'

theorem getElem?_modify_phase (calls : List Call) (caller : Nat) (phase : Phase) (i : Nat) :
    (calls.modify caller fun call => { call with phase })[i]? =
      if caller = i then calls[i]?.map fun call => { call with phase } else calls[i]? := by
  rw [List.getElem?_modify]
  split <;> simp

theorem cancel_change (s : State) (caller : Nat) : Change s [] (cancel s caller) := by
  have passes : ∀ s : State, (passTurn s).calls = s.calls ∧ (passTurn s).outcome = s.outcome ∧
      (passTurn s).halted = s.halted := by
    intro s
    unfold passTurn
    split <;> exact ⟨rfl, rfl, rfl⟩
  unfold cancel
  split
  · rename_i task active
    dsimp only
    split
    · obtain ⟨calls, outcome, halted⟩ :=
        passes { s.setPhase caller .cancelled with queue := s.queue.erase caller }
      exact .cancelled active calls outcome halted
    · exact .cancelled active rfl rfl rfl
  · exact .kept rfl rfl rfl

theorem deliver_change (s : State) (slot : Nat) (mail : Engine.Mail) :
    Change s [] (deliver s slot mail).2 := by
  obtain ⟨calls, outcome, halted⟩ := deliver_calls s slot mail
  exact .kept calls outcome halted

theorem Change.extends {s s' : State} {log : List (Nat × Execution)} (change : Change s log s') :
    s.Extends s' := by
  cases change with
  | kept calls outcome halted => exact .of_calls calls
  | started task => exact s.start_extends task
  | cancelled active calls outcome halted =>
    intro i task phase found
    rw [calls, getElem?_modify_phase, found]
    split
    · rename_i own
      subst own
      cases active.symm.trans found
      exact ⟨_, rfl, nofun⟩
    · exact ⟨phase, rfl, fun _ => id⟩
  | polled polled => exact polled.extends

theorem Change.finished {s s' : State} {log : List (Nat × Execution)} (change : Change s log s')
    {caller : Nat} {task : Task} {result : Result}
    (ended : s'.calls[caller]? = some ⟨task, .finished result⟩) :
    s.calls[caller]? = some ⟨task, .finished result⟩ ∨
    ∃ outcome record, s'.outcome = some outcome ∧
      Conclusion outcome task record s'.halted (.finished result) := by
  have modified : ∀ {other : Nat} {task' : Task} {phase : Phase},
      s.calls[other]? = some ⟨task', .active⟩ →
      s'.calls = (s.calls.modify other fun call => { call with phase }) →
      s.calls[caller]? = some ⟨task, .finished result⟩ ∨ task' = task ∧ phase = .finished result := by
    intro other task' phase found calls
    rw [calls, getElem?_modify_phase] at ended
    split at ended
    · rename_i own
      subst own
      rw [found] at ended
      cases ended
      exact .inr ⟨rfl, rfl⟩
    · exact .inl ended
  cases change with
  | kept calls outcome halted => exact .inl (calls ▸ ended)
  | started task' =>
    rw [State.start, List.getElem?_append] at ended
    split at ended
    · exact .inl ended
    · rw [List.getElem?_singleton] at ended
      split at ended <;> cases ended
  | cancelled found calls outcome halted =>
    rcases modified found calls with before | ⟨-, now⟩
    · exact .inl before
    · cases now
  | polled polled =>
    cases polled with
    | waits calls outcome halted => exact .inl (calls ▸ ended)
    | concludes found running settled after calls conclusion =>
      rcases modified found calls with before | ⟨rfl, rfl⟩
      · exact .inl before
      · exact .inr ⟨_, _, after, conclusion⟩

theorem Change.outcome {s s' : State} {log : List (Nat × Execution)} (change : Change s log s')
    {outcome : Except String Nat} (settled : s.outcome = some outcome) :
    s'.outcome = some outcome := by
  cases change with
  | kept calls outcome halted => exact outcome.trans settled
  | started task => exact settled
  | cancelled found calls outcome halted => exact outcome.trans settled
  | polled polled =>
    cases polled with
    | waits calls outcome halted => exact outcome.trans settled
    | concludes found running earlier after calls conclusion =>
      rcases earlier with unsettled | same
      · exact nomatch unsettled.symm.trans settled
      · exact after.trans (same.symm.trans settled)

theorem Accounted.cancelled {log : List (Nat × Execution)} {s s' : State} {caller : Nat}
    (accounted : Accounted log s)
    (calls : s'.calls = s.calls.modify caller fun call => { call with phase := .cancelled })
    (outcome : s'.outcome = s.outcome) (halted : s'.halted = s.halted) : Accounted log s' := by
  refine ⟨accounted.once, ?_, ?_⟩
  · intro entry member
    obtain ⟨id, phase, found, stuck⟩ := accounted.ran entry member
    rw [calls, getElem?_modify_phase, found, halted]
    split
    · exact ⟨id, .cancelled, rfl, nofun⟩
    · exact ⟨id, phase, rfl, stuck⟩
  · intro i task response ended
    rw [calls, getElem?_modify_phase] at ended
    split at ended
    · obtain ⟨call, -, same⟩ := Option.map_eq_some_iff.mp ended
      cases same
    · exact (accounted.answers i task response ended).later (fun _ => outcome.trans) (.refl log)

theorem Accounted.changed {log more : List (Nat × Execution)} {s s' : State}
    (accounted : Accounted log s) (change : Change s more s') : Accounted (log ++ more) s' := by
  cases change with
  | kept calls outcome halted => simpa using accounted.congr calls outcome halted
  | started task => simpa using accounted.started task
  | cancelled found calls outcome halted => simpa using accounted.cancelled calls outcome halted
  | polled polled => exact accounted.polled polled

section
variable {σ : Type} {provider : Engine.Provider σ} {budget : Duration}
  (returns : ∀ w engine code how, (provider.execute w engine code).1 ≠ .halt how)
include returns

theorem conclude_halted (s : State) (w : σ) (caller : Nat) (task : Task)
    (outcome : Except String Nat) :
    (conclude provider s w caller task outcome).1.halted = s.halted := by
  rcases task with _ | ⟨id, _ | code⟩ <;> rcases outcome with message | engine
  case answer.run.ok =>
    rcases executed : provider.execute w engine code with ⟨verdict, w'⟩
    cases verdict with
    | halt how => exact absurd (congrArg Prod.fst executed) (returns w engine code how)
    | _ => simp only [conclude, executed, responseKind?]; rfl
  all_goals rfl

theorem attend_halted (s : State) (w : σ) (bootstrap : Bootstrap) (task : Task) :
    (attend provider budget s w bootstrap task).1.halted = s.halted := by
  unfold attend
  split
  · exact conclude_halted returns ..
  · split
    · exact conclude_halted returns ..
    · rfl

theorem launch_halted (s : State) (w : σ) (caller : Nat) (task : Task) :
    (launch provider budget s w caller task).1.halted = s.halted := by
  unfold launch
  dsimp only
  split
  · exact conclude_halted returns ..
  · exact attend_halted returns ..

omit returns in
theorem enqueue_halted (s : State) (caller : Nat) : (enqueue s caller).halted = s.halted := by
  unfold enqueue
  split <;> rfl

theorem poll_halted (s : State) (w : σ) (caller : Nat) :
    (poll provider budget s w caller).1.halted = s.halted := by
  unfold poll
  split
  · split
    · exact conclude_halted returns ..
    · exact launch_halted returns ..
    · split
      · exact launch_halted returns ..
      · exact enqueue_halted s caller
    · split
      · exact attend_halted returns ..
      · exact enqueue_halted s caller
  · rfl

end

end Sandbox.Runner

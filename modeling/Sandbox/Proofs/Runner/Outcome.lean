import Sandbox.Proofs.Runner.Calls

namespace Sandbox.Runner

open Engine

/-! ## Worlds that look the same -/

theorem poll_relates {σ τ : Type} {provider : Provider σ} {image : Provider τ} (budget : Duration)
    {W : σ → τ → Prop} {R : State × σ → State × τ → Prop} {s : State} {caller : Nat}
    (change : List Call → List Call) (seen : (change s.calls)[caller]? = s.calls[caller]?)
    (starts : ∀ {v w} now slot, W v w →
      (image.start w now slot).1 = (provider.start v now slot).1 ∧
        W (provider.start v now slot).2 (image.start w now slot).2)
    (waits : ∀ {v w} s', s'.calls = s.calls → W v w →
      R (s', v) ({ s' with calls := change s'.calls }, w))
    (concludes : ∀ {v w} s' task outcome, s'.calls = s.calls →
      s.calls[caller]? = some ⟨task, .active⟩ → W v w →
      R (conclude provider s' v caller task outcome)
        (conclude image { s' with calls := change s'.calls } w caller task outcome))
    {v : σ} {w : τ} (same : W v w) :
    R (poll provider budget s v caller)
      (poll image budget { s with calls := change s.calls } w caller) := by
  have attends : ∀ {v w} s' b task, s'.calls = s.calls → s.calls[caller]? = some ⟨task, .active⟩ →
      b.caller = caller → W v w → R (attend provider budget s' v b task)
        (attend image budget { s' with calls := change s'.calls } w b task) := by
    intro v w s' b task calls active own same
    unfold attend endBootstrap
    split
    · exact own ▸ concludes { s' with outcome := _, turn := .free, queue := [] } _ _ calls active same
    · split
      · exact own ▸ concludes { s' with outcome := _, turn := .free, queue := [] } _ _ calls active same
      · exact waits { s' with turn := _ } calls same
  have launches : ∀ task, s.calls[caller]? = some ⟨task, .active⟩ →
      R (launch provider budget s v caller task)
        (launch image budget { s with calls := change s.calls } w caller task) := by
    intro task active
    obtain ⟨start, after⟩ := starts s.now s.slots same
    unfold launch endBootstrap
    rcases began : image.start w s.now s.slots with ⟨_, w'⟩
    rcases started : provider.start v s.now s.slots with ⟨⟨mail, result⟩, v'⟩
    rw [began, started] at start after
    obtain rfl := start
    cases result with
    | error message =>
      exact concludes { s with slots := _, outcome := _, turn := .free, queue := [] } _ _ rfl active
        after
    | ok _ => exact attends { s with slots := s.slots + 1 } ⟨caller, _, _, _⟩ _ rfl active rfl after
  have enqueues : R (enqueue s caller, v) (enqueue { s with calls := change s.calls } caller, w) := by
    unfold enqueue
    dsimp only
    split
    · exact waits s rfl same
    · exact waits { s with queue := _ } rfl same
  unfold poll
  dsimp only
  rw [seen]
  split
  · rename_i task running active
    split
    · exact concludes s _ _ rfl active same
    · exact launches task active
    · split
      · exact launches task active
      · exact enqueues
    · split
      · exact attends s _ _ rfl active ‹_› same
      · exact enqueues
  · exact waits s rfl same
structure Carries {σ τ : Type} (f : σ → τ) (provider : Provider σ) (image : Provider τ) :
    Prop where
  start : ∀ w now slot, image.start (f w) now slot = (provider.start w now slot).map id f
  execute : ∀ w engine code,
    image.execute (f w) engine code = (provider.execute w engine code).map id f

theorem observed_carries {σ : Type} (provider : Provider σ) (before : List Execution) :
    Carries (fun seen : σ × List Execution => (seen.1, before ++ seen.2)) (observed provider)
      (observed provider) := by
  refine ⟨fun w now slot => rfl, fun w engine code => ?_⟩
  simp only [observed, List.append_assoc]
  rfl

section
variable {σ τ : Type} {f : σ → τ} {provider : Provider σ} {image : Provider τ} (budget : Duration)

theorem Carries.conclude (carries : Carries f provider image) (s : State) (w : σ) (caller : Nat)
    (task : Task) (outcome : Except String Nat) :
    conclude image s (f w) caller task outcome =
      (conclude provider s w caller task outcome).map id f := by
  rcases task with _ | ⟨id, _ | code⟩ <;> rcases outcome with message | engine <;> try rfl
  simp only [Runner.conclude, carries.execute]
  rcases provider.execute w engine code with ⟨_ | _ | _ | _, w'⟩ <;> rfl

theorem Carries.poll (carries : Carries f provider image) (s : State) (w : σ) (caller : Nat) :
    poll image budget s (f w) caller = (poll provider budget s w caller).map id f := by
  refine poll_relates budget (W := fun v w => w = f v) (R := fun c c' => c' = c.map id f) id rfl ?_ ?_
    ?_ rfl
  · rintro v _ now slot rfl
    rw [carries.start]
    exact ⟨rfl, rfl⟩
  · rintro v _ s' - rfl
    rfl
  · rintro v _ s' task outcome - - rfl
    exact carries.conclude s' v caller task outcome

theorem Carries.step (carries : Carries f provider image) (s : Service) (w : σ)
    (action : Service.Action) :
    Service.step image budget (s, f w) action =
      (Service.step provider budget (s, w) action).map id f := by
  rcases action with _ | request | _ | _ | _ | ⟨task⟩ | ⟨caller⟩ | ⟨caller⟩ | ⟨slot, mail⟩ | ⟨span⟩
  case runner.poll =>
    simp only [Service.step, Service.poll, carries.poll]
    rfl
  all_goals rfl

theorem Carries.run (carries : Carries f provider image) (s : Service) (w : σ)
    (actions : List Service.Action) :
    Service.run image budget (s, f w) actions =
      (Service.run provider budget (s, w) actions).map id f := by
  induction actions generalizing s w with
  | nil => rfl
  | cons action rest ih =>
    rw [Service.run, List.foldl_cons, carries.step budget s w action]
    exact ih _ _

end

/-! ## What has been settled -/

/-- Calls have finished only after the outcome, and each with a result of its kind; executions are
those of the engine that has started. -/
structure Settled (log : List (Nat × Execution)) (s : State) : Prop where
  accounted : Accounted log s
  engine : ∀ entry ∈ log, s.outcome = some (.ok entry.2.engine)
  warmUp : ∀ (caller : Nat) (result : Result),
    s.calls[caller]? = some ⟨.warmUp, .finished result⟩ →
      s.outcome ≠ none ∧ result = .status s.status
  answer : ∀ (caller : Nat) (request : Request) (result : Result),
    s.calls[caller]? = some ⟨.answer request, .finished result⟩ →
    ∃ response, result = .response response

theorem State.status_congr {s s' : State} (same : s.outcome = s'.outcome) :
    s.status = s'.status := by
  rw [status, status, same]

theorem State.status_eq_initializing {s : State} : s.status = .initializing ↔ s.outcome = none := by
  rw [status]
  rcases s.outcome with _ | _ | _ <;> simp

theorem State.status_eq_failed {s : State} {message : String} :
    s.status = .failed message ↔ s.outcome = some (.error message) := by
  rw [status]
  rcases s.outcome with _ | _ | _ <;> simp

theorem Settled.changed {log more : List (Nat × Execution)} {s s' : State}
    (settled : Settled log s) (change : Change s more s') : Settled (log ++ more) s' := by
  refine ⟨settled.accounted.changed change, ?_, ?_, ?_⟩
  · intro entry member
    rcases List.mem_append.mp member with old | new
    · exact change.outcome (settled.engine entry old)
    · cases change with
      | polled polled =>
        obtain ⟨execution, ran, rfl⟩ := List.mem_map.mp new
        cases polled with
        | waits calls outcome halted => cases ran
        | concludes found running earlier after calls conclusion =>
          generalize s'.halted = halted at conclusion
          cases conclusion with
          | executed started returned =>
            obtain rfl := List.mem_singleton.mp ran
            exact started ▸ after
          | halted started =>
            obtain rfl := List.mem_singleton.mp ran
            exact started ▸ after
          | _ => cases ran
      | _ => cases new
  · intro caller result ended
    rcases change.finished ended with before | ⟨outcome, record, after, conclusion⟩
    · obtain ⟨some, rfl⟩ := settled.warmUp caller result before
      obtain ⟨outcome, earlier⟩ := Option.ne_none_iff_exists'.mp some
      have after := change.outcome earlier
      rw [after, s.status_congr (earlier.trans after.symm)]
      exact ⟨nofun, rfl⟩
    · generalize s'.halted = halted at conclusion
      cases conclusion with
      | warmUp same =>
        rw [after, State.status_congr (same.trans after.symm)]
        exact ⟨nofun, rfl⟩
  · intro caller request result ended
    rcases change.finished ended with before | ⟨outcome, record, after, conclusion⟩
    · exact settled.answer caller request result before
    · generalize s'.halted = halted at conclusion
      cases conclusion <;> exact ⟨_, rfl⟩

/-! ## Services -/

namespace Service

structure Kept (log : List (Nat × Execution)) (s : Service) : Prop where
  settled : Settled log s.runner
  sent : ∀ response ∈ s.outbox, ∃ caller ∈ s.serving, ∃ task,
    s.runner.calls[caller]? = some ⟨task, .finished (.response response)⟩

theorem Kept.begin : Kept [] {} :=
  ⟨⟨⟨by simp, by simp, by simp⟩, by simp, by simp, by simp⟩, by simp⟩

theorem Kept.changed {log more : List (Nat × Execution)} {s s' : Service} (kept : Kept log s)
    (change : Change s.runner more s'.runner) (serving : s.serving ⊆ s'.serving)
    (sent : ∀ response ∈ s'.outbox, response ∈ s.outbox ∨ ∃ caller ∈ s'.serving,
      answer? s'.runner caller = some response) : Kept (log ++ more) s' := by
  refine ⟨kept.settled.changed change, fun response out => ?_⟩
  rcases sent response out with before | ⟨caller, serves, answer⟩
  · obtain ⟨caller, serves, task, ended⟩ := kept.sent response before
    obtain ⟨phase, after, finished⟩ := change.extends caller task _ ended
    exact ⟨caller, serving serves, task, finished _ rfl ▸ after⟩
  · obtain ⟨task, ended⟩ := finished_of_answer? answer
    exact ⟨caller, serves, task, ended⟩

section
variable {σ : Type} (provider : Provider σ) (budget : Duration)

theorem step_change (s : Service) (w : σ) (action : Action) :
    ∃ s' w' log, step (observed provider) budget (s, w, []) action =
        (s', w', log.map Prod.snd) ∧ step provider budget (s, w) action = (s', w') ∧
      Change s.runner log s'.runner ∧ s.serving ⊆ s'.serving ∧
      ∀ response ∈ s'.outbox, response ∈ s.outbox ∨ ∃ caller ∈ s'.serving,
        answer? s'.runner caller = some response := by
  have quiet : ∀ outbox : List Response, outbox ⊆ s.outbox → ∀ serving, s.serving ⊆ serving →
      ∀ runner, Change s.runner [] runner → Change s.runner [] runner ∧ s.serving ⊆ serving ∧
        ∀ response ∈ outbox, response ∈ s.outbox ∨ ∃ caller ∈ serving,
          answer? runner caller = some response := by
    intro outbox out serving grown runner change
    exact ⟨change, grown, fun response sent => .inl (out sent)⟩
  have same : Change s.runner [] s.runner := .kept rfl rfl rfl
  cases action with
  | start => exact ⟨_, w, [], rfl, rfl, quiet _ (.refl _) _ (.refl _) _ (.started .warmUp)⟩
  | post request =>
    simp only [step, post]
    split
    · exact ⟨_, w, [], rfl, rfl, quiet _ (.refl _) _ (.refl _) _ same⟩
    · exact ⟨_, w, [], rfl, rfl, quiet _ (.refl _) _ (.refl _) _ same⟩
  | close => exact ⟨_, w, [], rfl, rfl, quiet _ (.refl _) _ (.refl _) _ same⟩
  | stopListening => exact ⟨_, w, [], rfl, rfl, quiet _ (List.nil_subset _) _ (.refl _) _ same⟩
  | receive =>
    simp only [step, receive]
    split
    · rename_i request rest accepting running inbox
      exact ⟨_, w, [], rfl, rfl, quiet _ (.refl _) _ (List.subset_append_left ..) _
        (.started (.answer request))⟩
    · split
      · exact ⟨_, w, [], rfl, rfl, quiet _ (.refl _) _ (.refl _) _ same⟩
      · exact ⟨_, w, [], rfl, rfl, quiet _ (.refl _) _ (.refl _) _ same⟩
    · exact ⟨_, w, [], rfl, rfl, quiet _ (.refl _) _ (.refl _) _ same⟩
  | runner action =>
    cases action with
    | start task => exact ⟨_, w, [], rfl, rfl, quiet _ (.refl _) _ (.refl _) _ (.started task)⟩
    | poll caller =>
      obtain ⟨runner, w', record, eq, plain, polled⟩ :=
        poll_observed provider budget s.runner w caller
      simp only [step, poll, eq, plain]
      refine ⟨_, w', record.map fun execution => (caller, execution), ?_, rfl, .polled polled,
        .refl _, ?_⟩
      · simp [Function.comp_def]
      · intro response sent
        rcases List.mem_append.mp sent with before | fresh
        · exact .inl before
        · split at fresh
          · rename_i own
            split at fresh
            · exact .inr ⟨caller, own.2, Option.mem_toList.mp fresh⟩
            · cases fresh
          · cases fresh
    | cancel caller =>
      exact ⟨_, w, [], rfl, rfl, quiet _ (.refl _) _ (.refl _) _ (cancel_change s.runner caller)⟩
    | deliver slot mail =>
      exact ⟨_, w, [], rfl, rfl, quiet _ (.refl _) _ (.refl _) _ (deliver_change s.runner slot mail)⟩
    | advance span =>
      exact ⟨_, w, [], rfl, rfl, quiet _ (.refl _) _ (.refl _) _ (.kept rfl rfl rfl)⟩

theorem Kept.run {log : List (Nat × Execution)} {s : Service} (kept : Kept log s) (w : σ)
    (actions : List Action) :
    ∃ s' w' log', run (observed provider) budget (s, w, log.map Prod.snd) actions =
        (s', w', log'.map Prod.snd) ∧
      Service.run provider budget (s, w) actions = (s', w') ∧ Kept log' s' := by
  induction actions generalizing log s w with
  | nil => exact ⟨s, w, log, rfl, rfl, kept⟩
  | cons action rest ih =>
    obtain ⟨s₁, w₁, more, eq, plain, change, serving, sent⟩ :=
      step_change provider budget s w action
    obtain ⟨s', w', log', eq', plain', kept'⟩ := ih (kept.changed change serving sent) w₁
    refine ⟨s', w', log', ?_, ?_, kept'⟩
    · have carried := (observed_carries provider (log.map Prod.snd)).step budget s (w, []) action
      rw [List.append_nil, eq] at carried
      rw [Service.run, List.foldl_cons, carried, ← eq', List.map_append]
      rfl
    · rw [Service.run, List.foldl_cons, plain]
      exact plain'

theorem run_later (s : Service) (w : σ) (later : List Action) :
    s.runner.Extends (run provider budget (s, w) later).1.runner ∧
    ∀ outcome, s.runner.outcome = some outcome →
      (run provider budget (s, w) later).1.runner.outcome = some outcome := by
  induction later generalizing s w with
  | nil => exact ⟨.refl _, fun _ => id⟩
  | cons action later ih =>
    obtain ⟨s', w', log, -, plain, change, -⟩ := step_change provider budget s w action
    obtain ⟨extended, kept⟩ := ih s' w'
    rw [run, List.foldl_cons, plain]
    exact ⟨change.extends.trans extended, fun outcome settled => kept outcome (change.outcome settled)⟩

end

/-- Nothing is answered before the outcome; and what is answered then agrees with it, each snippet
with the one execution that it has in the log. -/
structure Consistent (log : List (Nat × Execution)) (s : Service) : Prop where
  waits : s.runner.status = .initializing → log = [] ∧ s.outbox = [] ∧
    ∀ (caller : Nat) (task : Task) (result : Result),
      s.runner.calls[caller]? ≠ some ⟨task, .finished result⟩
  reports : ∀ (caller : Nat) (result : Result),
    s.runner.calls[caller]? = some ⟨.warmUp, .finished result⟩ →
    result = .status s.runner.status
  refuses : ∀ message, s.runner.status = .failed message → log = [] ∧
    ∀ (caller : Nat) (request : Request) (result : Result),
      s.runner.calls[caller]? = some ⟨.answer request, .finished result⟩ →
      result = .response ⟨request.id, .failure ("runner not ready: " ++ message)⟩
  pings : s.runner.status = .ready → ∀ (caller : Nat) (id : CorrelationId) (result : Result),
    s.runner.calls[caller]? = some ⟨.answer ⟨id, .ping⟩, .finished result⟩ →
    result = .response ⟨id, .ready⟩
  executes : s.runner.status = .ready →
    ∀ (caller : Nat) (id : CorrelationId) (code : String) (result : Result),
      s.runner.calls[caller]? = some ⟨.answer ⟨id, .run code⟩, .finished result⟩ →
      ∃ execution kind, (caller, execution) ∈ log ∧ execution.code = code ∧
        s.runner.outcome = some (.ok execution.engine) ∧
        responseKind? execution.verdict = some kind ∧ result = .response ⟨id, kind⟩
  once : (log.map Prod.fst).Nodup
  sent : ∀ response ∈ s.outbox, ∃ caller ∈ s.serving, ∃ task,
    s.runner.calls[caller]? = some ⟨task, .finished (.response response)⟩

theorem Kept.consistent {log : List (Nat × Execution)} {s : Service} (kept : Kept log s) :
    Consistent log s := by
  obtain ⟨⟨accounted, engine, warmUp, answer⟩, sent⟩ := kept
  have answers : ∀ (caller : Nat) (request : Request) (result : Result),
      s.runner.calls[caller]? = some ⟨.answer request, .finished result⟩ →
      ∃ response, result = .response response ∧
        Answers s.runner log caller (.answer request) response := by
    intro caller request result ended
    obtain ⟨response, rfl⟩ := answer caller request result ended
    exact ⟨response, rfl, accounted.answers caller _ response ended⟩
  have unfinished : s.runner.outcome = none → ∀ (caller : Nat) (task : Task) (result : Result),
      s.runner.calls[caller]? ≠ some ⟨task, .finished result⟩ := by
    intro unsettled caller task result ended
    cases task with
    | warmUp => exact (warmUp caller result ended).1 unsettled
    | answer request =>
      obtain ⟨response, -, how⟩ := answers caller request result ended
      cases how with
      | notReady failed => exact nomatch unsettled.symm.trans failed
      | ready started => exact nomatch unsettled.symm.trans started
      | executed started logged returned => exact nomatch unsettled.symm.trans started
  refine ⟨?_, fun caller result ended => (warmUp caller result ended).2, ?_, ?_, ?_,
    accounted.once, sent⟩
  · intro initializing
    have unsettled : s.runner.outcome = none := State.status_eq_initializing.mp initializing
    refine ⟨?_, ?_, unfinished unsettled⟩
    · rw [List.eq_nil_iff_forall_not_mem]
      intro entry logged
      exact nomatch unsettled.symm.trans (engine entry logged)
    · rw [List.eq_nil_iff_forall_not_mem]
      intro response out
      obtain ⟨caller, -, task, ended⟩ := sent response out
      exact unfinished unsettled caller task _ ended
  · intro message failed
    replace failed := State.status_eq_failed.mp failed
    refine ⟨?_, ?_⟩
    · rw [List.eq_nil_iff_forall_not_mem]
      intro entry logged
      exact nomatch failed.symm.trans (engine entry logged)
    · intro caller request result ended
      obtain ⟨response, rfl, how⟩ := answers caller request result ended
      cases how with
      | notReady failed' =>
        cases failed.symm.trans failed'
        rfl
      | ready started => exact nomatch failed.symm.trans started
      | executed started logged returned => exact nomatch failed.symm.trans started
  · intro ready caller id result ended
    obtain ⟨response, rfl, how⟩ := answers caller _ result ended
    cases how with
    | notReady failed => exact nomatch ready.symm.trans (State.status_eq_failed.mpr failed)
    | ready started => rfl
  · intro ready caller id code result ended
    obtain ⟨response, rfl, how⟩ := answers caller _ result ended
    cases how with
    | notReady failed => exact nomatch ready.symm.trans (State.status_eq_failed.mpr failed)
    | executed started logged returned => exact ⟨_, _, logged, rfl, started, returned, rfl⟩

theorem outcome_settles_answers {σ : Type} (provider : Provider σ) (budget : Duration) (w : σ)
    (actions : List Action) :
    (∀ later, (run provider budget ({}, w) actions).1.runner.Extends
        (run provider budget ({}, w) (actions ++ later)).1.runner ∧
      ((run provider budget ({}, w) actions).1.runner.status ≠ .initializing →
        (run provider budget ({}, w) (actions ++ later)).1.runner.status =
          (run provider budget ({}, w) actions).1.runner.status)) ∧
    (run (observed provider) budget ({}, w, []) actions).1 =
      (run provider budget ({}, w) actions).1 ∧
    ∃ log, log.map Prod.snd = (run (observed provider) budget ({}, w, []) actions).2.2 ∧
      Consistent log (run provider budget ({}, w) actions).1 := by
  have start : Kept [] {} := ⟨⟨⟨by simp, by simp, by simp⟩, by simp, by simp, by simp⟩, by simp⟩
  obtain ⟨s, w', log, eq, plain, kept⟩ := start.run provider budget w actions
  rw [List.map_nil] at eq
  refine ⟨fun later => ?_, ?_, log, ?_, ?_⟩
  · obtain ⟨extended, settled⟩ := run_later provider budget s w' later
    rw [show run provider budget ({}, w) (actions ++ later) = run provider budget (s, w') later by
      rw [← plain]; exact List.foldl_append, plain]
    refine ⟨extended, fun decided => ?_⟩
    cases before : s.runner.outcome with
    | none => exact absurd (State.status_eq_initializing.mpr before) decided
    | some outcome => exact State.status_congr ((settled _ before).trans before.symm)
  · rw [eq, plain]
  · rw [eq]
  · rw [plain]
    exact kept.consistent

def slow : Provider Unit where
  start w _ _ := (⟨none, .ok ()⟩, w)
  execute w _ code := (.output ⟨some code, none⟩, w)

def relay : List Action :=
  [.start, .runner (.poll 0), .post ⟨⟨"a"⟩, .run "x"⟩, .receive, .runner (.poll 1),
    .runner (.cancel 0), .runner (.poll 1), .runner (.deliver 0 (.published 5)),
    .runner (.deliver 1 .dropped), .runner (.poll 1)]

theorem outcome_settles_answers_relay :
    (run slow ⟨1⟩ ({}, ()) relay).1.runner.status =
      .failed "engine stopped before publishing its execute capability" ∧
    (run slow ⟨1⟩ ({}, ()) relay).1.runner.calls[1]? = some ⟨.answer ⟨⟨"a"⟩, .run "x"⟩,
      .finished (.response ⟨⟨"a"⟩, .failure
        ("runner not ready: " ++ "engine stopped before publishing its execute capability")⟩)⟩ ∧
    (run (observed slow) ⟨1⟩ ({}, (), []) relay).2.2 = [] := by
  obtain ⟨-, -, log, executed, consistent⟩ := outcome_settles_answers slow ⟨1⟩ () relay
  have failed : (run slow ⟨1⟩ ({}, ()) relay).1.runner.status =
      .failed "engine stopped before publishing its execute capability" := rfl
  refine ⟨failed, rfl, ?_⟩
  rw [← executed, (consistent.refuses _ failed).1]
  rfl

end Service

end Sandbox.Runner

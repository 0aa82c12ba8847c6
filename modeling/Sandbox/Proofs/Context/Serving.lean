import Sandbox.Context.Thread
import Sandbox.Proofs.Runner.Calls

namespace Sandbox.Context.Thread

open Runner

structure Serves (requests : List Request) (log : List (Nat × Execution)) (t : Thread) : Prop where
  listens : t.destroyed = false → t.service.closed = false
  taken : ∃ received, received ++ t.service.inbox = requests ∧
    t.service.runner.calls.map Call.task = .warmUp :: received.map .answer
  accounted : Accounted log t.service.runner
  outbox : ∀ response ∈ t.service.outbox, t.service.runner.Answered response

namespace Serves

variable {requests : List Request} {log : List (Nat × Execution)} {t : Thread}

theorem begin (now : Duration) :
    Serves [] [] { service := Service.start { runner := { now } } } := by
  refine ⟨fun _ => rfl, ⟨[], rfl, rfl⟩, ?_, by simp [Service.start]⟩
  have fresh : Accounted [] { now } := ⟨by simp, by simp, by simp⟩
  exact fresh.started .warmUp

theorem post (serves : Serves requests log t) {t' : Thread} {request : Request}
    (posted : t.post request = (.ok (), t')) :
    Serves (requests ++ [request]) log t' ∧ t'.service.runner = t.service.runner := by
  rw [Thread.post] at posted
  split at posted
  · cases posted
  · rename_i alive
    cases posted
    have open_ : t.service.closed = false := serves.listens (eq_false_of_ne_true alive)
    obtain ⟨received, split, tasks⟩ := serves.taken
    have queued : t.service.post request =
        { t.service with inbox := t.service.inbox ++ [request] } := by
      rw [Service.post, if_neg (by simp [open_])]
    rw [queued]
    refine ⟨⟨serves.listens, ⟨received, ?_, tasks⟩, serves.accounted, serves.outbox⟩, rfl⟩
    rw [← List.append_assoc, split]

theorem post_refused {t' : Thread} {request : Request} {cause : Failure}
    (refused : t.post request = (.error cause, t')) : t' = t ∧ cause = .link .contextDestroyed := by
  rw [Thread.post] at refused
  split at refused
  · cases refused
    exact ⟨rfl, rfl⟩
  · cases refused

theorem destroy (serves : Serves requests log t) : Serves requests log t.destroy :=
  ⟨nofun, serves.taken, serves.accounted, serves.outbox⟩

theorem requested (serves : Serves requests log t) {caller : Nat} {request : Request}
    {phase : Phase} (found : t.service.runner.calls[caller]? = some ⟨.answer request, phase⟩) :
    request ∈ requests := by
  obtain ⟨received, split, tasks⟩ := serves.taken
  have member : Task.answer request ∈ t.service.runner.calls.map Call.task :=
    List.mem_map.mpr ⟨_, List.mem_of_getElem? found, rfl⟩
  rw [tasks] at member
  rcases List.mem_cons.mp member with warmUp | answer
  · cases warmUp
  · obtain ⟨other, taken, same⟩ := List.mem_map.mp answer
    cases same
    exact split ▸ List.mem_append_left _ taken

theorem call_once (serves : Serves requests log t) {α : Type} (mark : Request → Option α)
    (once : (requests.filterMap mark).Nodup) {i j : Nat} {request : Request} {phase phase' : Phase}
    (found : t.service.runner.calls[i]? = some ⟨.answer request, phase⟩)
    (found' : t.service.runner.calls[j]? = some ⟨.answer request, phase'⟩) {a : α}
    (marked : mark request = some a) : i = j := by
  obtain ⟨received, split, tasks⟩ := serves.taken
  have distinct : (received.filterMap mark).Nodup := by
    rw [← split, List.filterMap_append] at once
    exact (List.nodup_append.mp once).1
  have apart := List.pairwise_filterMap.mp distinct
  have position : ∀ {k : Nat} {phase : Phase},
      t.service.runner.calls[k]? = some ⟨.answer request, phase⟩ →
      ∃ l, k = l + 1 ∧ received[l]? = some request := by
    intro k phase found
    have task : (t.service.runner.calls.map Call.task)[k]? = some (.answer request) := by
      rw [List.getElem?_map, found]
      rfl
    rw [tasks] at task
    cases k with
    | zero => cases task
    | succ l => exact ⟨l, rfl, by simpa using task⟩
  obtain ⟨k, rfl, here⟩ := position found
  obtain ⟨l, rfl, there⟩ := position found'
  obtain ⟨inside, rfl⟩ := List.getElem?_eq_some_iff.mp here
  obtain ⟨inside', same⟩ := List.getElem?_eq_some_iff.mp there
  rw [List.pairwise_iff_getElem] at apart
  rcases Nat.lt_trichotomy k l with before | rfl | after
  · exact absurd rfl (apart k l inside inside' before a marked a (same ▸ marked))
  · rfl
  · exact absurd rfl (apart l k inside' inside after a (same ▸ marked) a marked)

theorem receive (serves : Serves requests log t) : Serves requests log t.receive ∧
    t.service.runner.Extends t.receive.service.runner := by
  rw [Thread.receive, Service.receive]
  split
  · exact ⟨serves, .refl _⟩
  split
  · rename_i request rest accepting running inbox
    obtain ⟨received, split, tasks⟩ := serves.taken
    have extended := t.service.runner.start_extends (.answer request)
    refine ⟨⟨serves.listens, ⟨received ++ [request], ?_, ?_⟩, serves.accounted.started _, ?_⟩,
      extended⟩
    · rw [← split, inbox]
      simp
    · simp [State.start, tasks]
    · exact fun response sent => extended.answered (serves.outbox response sent)
  · split
    · exact ⟨⟨serves.listens, serves.taken, serves.accounted, serves.outbox⟩, .refl _⟩
    · exact ⟨serves, .refl _⟩
  · exact ⟨serves, .refl _⟩

theorem onRunner (serves : Serves requests log t) (change : State → State)
    (calls : (change t.service.runner).calls = t.service.runner.calls)
    (outcome : (change t.service.runner).outcome = t.service.runner.outcome)
    (halted : (change t.service.runner).halted = t.service.runner.halted) :
    Serves requests log (t.onRunner change) ∧
      t.service.runner.Extends (t.onRunner change).service.runner := by
  have extended : t.service.runner.Extends (t.onRunner change).service.runner := .of_calls calls
  refine ⟨⟨serves.listens, ?_, serves.accounted.congr calls outcome halted, ?_⟩, extended⟩
  · obtain ⟨received, split, tasks⟩ := serves.taken
    exact ⟨received, split, (congrArg _ calls).trans tasks⟩
  · exact fun response sent => extended.answered (serves.outbox response sent)

theorem forward (serves : Serves requests log t) : Serves requests log t.forward.2 ∧
    t.forward.2.service.runner = t.service.runner ∧
    ∀ response ∈ t.forward.1, t.service.runner.Answered response := by
  rw [Thread.forward]
  split
  · rename_i response rest forwarding running outbox
    have answered := serves.outbox
    rw [outbox] at answered
    split
    · exact ⟨⟨serves.listens, serves.taken, serves.accounted, by simp [Service.stopListening]⟩, rfl,
        by simp⟩
    · refine ⟨⟨serves.listens, serves.taken, serves.accounted, ?_⟩, rfl, ?_⟩
      · exact fun other later => answered other (List.mem_cons_of_mem _ later)
      · intro other sent
        obtain rfl := List.mem_singleton.mp sent
        exact answered _ (List.mem_cons_self ..)
  · exact ⟨serves, rfl, by simp⟩

theorem poll (serves : Serves requests log t) {σ : Type} (provider : Engine.Provider σ)
    (budget : Duration) (w : σ) (caller : Nat) :
    ∃ t' w' record, t.poll (observed provider) budget (w, []) caller = (t', w', record) ∧
      t.poll provider budget w caller = (t', w') ∧
      Serves requests (log ++ record.map fun execution => (caller, execution)) t' ∧
      t.service.runner.Extends t'.service.runner ∧
      t'.service.runner.calls.map Call.task = t.service.runner.calls.map Call.task := by
  simp only [Thread.poll]
  split
  · exact ⟨t, w, [], rfl, rfl, by simpa using serves, .refl _, rfl⟩
  · obtain ⟨runner, w', record, eq, plain, polled⟩ :=
      poll_observed provider budget t.service.runner w caller
    simp only [Service.poll, eq, plain]
    refine ⟨_, w', record, rfl, rfl, ⟨serves.listens, ?_, serves.accounted.polled polled, ?_⟩,
      polled.extends, polled.tasks⟩
    · obtain ⟨received, split, tasks⟩ := serves.taken
      exact ⟨received, split, polled.tasks.trans tasks⟩
    · intro response sent
      rcases List.mem_append.mp sent with before | fresh
      · exact polled.extends.answered (serves.outbox response before)
      · split at fresh
        · split at fresh
          · exact answered_of_answer? (Option.mem_toList.mp fresh)
          · cases fresh
        · cases fresh

end Serves

end Sandbox.Context.Thread

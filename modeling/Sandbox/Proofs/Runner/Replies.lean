import Sandbox.Proofs.Runner.Calls

namespace Sandbox.Runner

def Call.response? : Call → Option Response
  | ⟨_, .finished (.response response)⟩ => some response
  | _ => none

def State.replies (s : State) : List Response := s.calls.filterMap Call.response?

inductive Call.Sound : Call → Prop
  | active (task : Task) : Sound ⟨task, .active⟩
  | warmed (status : Status) : Sound ⟨.warmUp, .finished (.status status)⟩
  | replied {request : Request} {response : Response} (id : response.id = request.id) :
    Sound ⟨.answer request, .finished (.response response)⟩

theorem Conclusion.sound {outcome : Except String Nat} {task : Task} {record : List Execution}
    {halted : Option Engine.Halt} {phase : Phase}
    (conclusion : Conclusion outcome task record halted phase) : Call.Sound ⟨task, phase⟩ := by
  cases conclusion with
  | warmUp settled => exact .warmed _
  | notReady failed => exact .replied rfl
  | ready started => exact .replied rfl
  | executed started returned => exact .replied rfl
  | halted started => exact .active _

theorem Service.answer?_eq (s : State) (caller : Nat) :
    answer? s caller = s.calls[caller]?.bind Call.response? := by
  rw [answer?]
  rcases s.calls[caller]? with _ | ⟨task, _ | ⟨_ | _⟩ | _⟩ <;> rfl

theorem modify_split {calls : List Call} {caller : Nat} {call : Call}
    (found : calls[caller]? = some call) (phase : Phase) : ∃ before after,
      calls = before ++ call :: after ∧
      (calls.modify caller fun call => { call with phase }) =
        before ++ { call with phase } :: after := by
  obtain ⟨within, here⟩ := List.getElem?_eq_some_iff.mp found
  refine ⟨calls.take caller, calls.drop (caller + 1), ?_, ?_⟩
  · rw [← here, List.getElem_cons_drop, List.take_append_drop]
  · rw [List.modify_eq_take_cons_drop within, here]

theorem modify_sound {calls : List Call} {caller : Nat} {task : Task} {phase : Phase}
    (found : calls[caller]? = some ⟨task, .active⟩) (sound : ∀ call ∈ calls, call.Sound)
    (concluded : Call.Sound ⟨task, phase⟩) :
    (∀ call ∈ calls.modify caller fun call => { call with phase }, call.Sound) ∧
    ((calls.modify caller fun call => { call with phase }).filterMap Call.response?).Perm
      (calls.filterMap Call.response? ++ (Call.response? ⟨task, phase⟩).toList) := by
  obtain ⟨before, after, split, changed⟩ := modify_split found phase
  rw [split] at sound
  rw [changed, split]
  constructor
  · intro call member
    rcases List.mem_append.mp member with earlier | member
    · exact sound call (List.mem_append_left _ earlier)
    · rcases List.mem_cons.mp member with rfl | later
      · exact concluded
      · exact sound call (List.mem_append_right _ (List.mem_cons_of_mem _ later))
  · have unanswered : Call.response? ⟨task, .active⟩ = none := rfl
    rw [List.filterMap_append, List.filterMap_append, List.filterMap_cons_none unanswered,
      List.append_assoc]
    refine List.Perm.append_left _ ?_
    cases response : Call.response? ⟨task, phase⟩ with
    | none =>
      rw [List.filterMap_cons_none response, Option.toList_none, List.append_nil]
    | some reply =>
      rw [List.filterMap_cons_some response]
      exact (List.perm_append_singleton reply _).symm

theorem replies_ids {calls : List Call} {received : List Request}
    (tasks : calls.map Call.task = received.map .answer) (sound : ∀ call ∈ calls, call.Sound) :
    ((calls.filterMap Call.response?).map Response.id).Sublist (received.map Request.id) ∧
    ((∀ call ∈ calls, call.phase ≠ .active) →
      (calls.filterMap Call.response?).map Response.id = received.map Request.id) := by
  induction calls generalizing received with
  | nil =>
    obtain rfl := List.map_eq_nil_iff.mp tasks.symm
    exact ⟨.slnil, fun _ => rfl⟩
  | cons call rest ih =>
    cases received with
    | nil => cases tasks
    | cons request received =>
      obtain ⟨task, tasks⟩ := List.cons.inj tasks
      obtain ⟨fewer, all⟩ := ih tasks fun other member => sound other (List.mem_cons_of_mem _ member)
      cases sound call List.mem_cons_self with
      | active task' =>
        refine ⟨fewer.cons _, fun finished => ?_⟩
        exact absurd rfl (finished _ List.mem_cons_self)
      | warmed status => cases task
      | @replied request' response id =>
        cases task
        rw [List.filterMap_cons_some (f := Call.response?) rfl, List.map_cons, List.map_cons, id]
        refine ⟨fewer.cons_cons _, fun finished => ?_⟩
        rw [all fun other member => finished other (List.mem_cons_of_mem _ member)]

theorem task_before {s s' : State} (tasks : s'.calls.map Call.task = s.calls.map Call.task) {i : Nat}
    {task : Task} {phase : Phase} (found : s'.calls[i]? = some ⟨task, phase⟩) :
    ∃ phase', s.calls[i]? = some ⟨task, phase'⟩ := by
  have same := congrArg (·[i]?) tasks
  simp only [List.getElem?_map, found, Option.map_some] at same
  obtain ⟨⟨task', phase'⟩, before, rfl⟩ := Option.map_eq_some_iff.mp same.symm
  exact ⟨phase', before⟩

namespace Service

theorem receive_halted {s : Service} {how : Engine.Halt} (halted : s.runner.halted = some how) :
    s.receive = s := by
  rw [receive]
  split
  · rename_i running inbox
    cases halted.symm.trans running
  · rename_i running inbox
    cases halted.symm.trans running
  · rfl

/-- The service was posted these requests, and has begun a call for each that left its queue. -/
structure Takes (taken : List Request) (s : Service) : Prop where
  received : ∃ received, received ++ s.inbox = taken ∧
    s.runner.calls.map Call.task = .warmUp :: received.map .answer
  serving : ∀ (caller : Nat) (request : Request) (phase : Phase),
    s.runner.calls[caller]? = some ⟨.answer request, phase⟩ → caller ∈ s.serving
  sound : ∀ call ∈ s.runner.calls, call.Sound

namespace Takes

variable {taken : List Request} {s : Service}

theorem begin : Takes [] (Service.start {}) := by
  refine ⟨⟨[], rfl, rfl⟩, ?_, ?_⟩
  · intro caller request phase found
    rcases caller with _ | caller <;> cases found
  · intro call member
    obtain rfl := List.mem_singleton.mp member
    exact .active .warmUp

theorem congr (takes : Takes taken s) {s' : Service} (inbox : s'.inbox = s.inbox)
    (calls : s'.runner.calls = s.runner.calls) (serving : s'.serving = s.serving) :
    Takes taken s' := by
  refine ⟨?_, ?_, calls ▸ takes.sound⟩
  · rw [inbox, calls]
    exact takes.received
  · rw [calls, serving]
    exact takes.serving

theorem post (takes : Takes taken s) (request : Request) (opened : s.closed = false) :
    Takes (taken ++ [request]) (s.post request) := by
  obtain ⟨received, split, tasks⟩ := takes.received
  rw [Service.post, if_neg (by simp [opened])]
  refine ⟨⟨received, ?_, tasks⟩, takes.serving, takes.sound⟩
  rw [← List.append_assoc, split]

theorem receive (takes : Takes taken s) :
    Takes taken s.receive ∧ s.receive.runner.replies = s.runner.replies := by
  rw [Service.receive]
  split
  · rename_i request rest accepting running inbox
    obtain ⟨received, split, tasks⟩ := takes.received
    refine ⟨⟨⟨received ++ [request], ?_, ?_⟩, ?_, ?_⟩, ?_⟩
    · rw [← split, inbox, List.append_assoc]
      rfl
    · simp [State.start, tasks]
    · intro caller request' phase found
      rw [State.start, List.getElem?_append] at found
      split at found
      · exact List.mem_append_left _ (takes.serving caller request' phase found)
      · obtain ⟨within, -⟩ := List.getElem?_eq_some_iff.mp found
        refine List.mem_append_right _ (List.mem_singleton.mpr ?_)
        rw [List.length_singleton] at within
        change caller = s.runner.calls.length
        omega
    · intro call member
      rcases List.mem_append.mp member with old | new
      · exact takes.sound call old
      · obtain rfl := List.mem_singleton.mp new
        exact .active _
    · rw [State.replies, State.start, List.filterMap_append]
      exact List.append_nil _
  · split
    · exact ⟨takes.congr rfl rfl rfl, rfl⟩
    · exact ⟨takes, rfl⟩
  · exact ⟨takes, rfl⟩

section
variable {σ : Type} (provider : Engine.Provider σ) (budget : Duration)

theorem poll (takes : Takes taken s) (w : σ) (caller : Nat) :
    ∃ runner w' sent, s.poll provider budget w caller =
        ({ s with runner, outbox := s.outbox ++ if s.heard then sent else [] }, w') ∧
      Takes taken { s with runner, outbox := s.outbox ++ if s.heard then sent else [] } ∧
      runner.replies.Perm (s.runner.replies ++ sent) := by
  obtain ⟨runner, w', record, -, plain, polled⟩ :=
    poll_observed provider budget s.runner w caller
  have tasks := polled.tasks
  cases polled with
  | waits calls outcome halted =>
    have same : answer? runner caller = answer? s.runner caller := by
      rw [answer?_eq, answer?_eq, calls]
    refine ⟨runner, w', [], ?_, takes.congr rfl calls rfl, ?_⟩
    · simp only [Service.poll, plain, same]
      cases answer? s.runner caller <;> simp
    · rw [State.replies, calls, List.append_nil]
      exact .rfl
  | @concludes _ task outcome record phase found running settled after calls conclusion =>
    obtain ⟨sound, grown⟩ := modify_sound found takes.sound conclusion.sound
    have serving : ∀ request, task = .answer request → caller ∈ s.serving := by
      rintro request rfl
      exact takes.serving caller request _ found
    have here : runner.calls[caller]? = some ⟨task, phase⟩ := by
      rw [calls, getElem?_modify_phase, if_pos rfl, found]
      rfl
    refine ⟨runner, w', (Call.response? ⟨task, phase⟩).toList, ?_, ⟨?_, ?_, ?_⟩, ?_⟩
    · have before : answer? s.runner caller = none := by
        rw [answer?_eq, found]
        rfl
      have now : answer? runner caller = Call.response? ⟨task, phase⟩ := by
        rw [answer?_eq, here]
        rfl
      simp only [Service.poll, plain, before, now]
      cases conclusion.sound with
      | replied id => simp [serving _ rfl]
      | _ => simp [Call.response?]
    · obtain ⟨received, split, before⟩ := takes.received
      exact ⟨received, split, tasks.trans before⟩
    · intro i request phase' found'
      obtain ⟨phase'', before⟩ := task_before tasks found'
      exact takes.serving i request phase'' before
    · exact calls ▸ sound
    · rw [State.replies, calls]
      exact grown

end

theorem replies (takes : Takes taken s) :
    (s.runner.replies.map Response.id).Sublist (taken.map Request.id) ∧
    (s.inbox = [] → (∀ request, ⟨.answer request, .active⟩ ∉ s.runner.calls) →
      s.runner.replies.map Response.id = taken.map Request.id) := by
  obtain ⟨received, split, tasks⟩ := takes.received
  have sound := takes.sound
  rw [State.replies]
  rcases calls : s.runner.calls with _ | ⟨⟨task, phase⟩, rest⟩
  · rw [calls] at tasks
    cases tasks
  · rw [calls] at tasks sound
    obtain ⟨rfl, asked⟩ := List.cons.inj tasks
    have unanswered : Call.response? ⟨.warmUp, phase⟩ = none := by
      cases sound _ List.mem_cons_self <;> rfl
    obtain ⟨fewer, all⟩ :=
      replies_ids asked fun call member => sound call (List.mem_cons_of_mem _ member)
    rw [List.filterMap_cons_none unanswered]
    constructor
    · rw [← split, List.map_append]
      exact fewer.trans (List.sublist_append_left ..)
    · intro inbox served
      rw [← split, inbox, List.append_nil]
      refine all fun call member active => ?_
      have answers : call.task ∈ received.map Task.answer := asked ▸ List.mem_map_of_mem member
      obtain ⟨request, -, task⟩ := List.mem_map.mp answers
      refine served request (List.mem_cons_of_mem _ ?_)
      rwa [task, ← active]

end Takes

end Service

end Sandbox.Runner

import Sandbox.Proofs.Runner.Attempt

namespace Sandbox.Runner

open Engine

theorem State.Active.of_calls {s s' : State} {caller : Nat} (active : s.Active caller)
    (same : s'.calls = s.calls) : s'.Active caller := by
  rwa [State.Active, same]

theorem State.Active.modified {s s' : State} {caller other : Nat} {phase : Phase}
    (active : s.Active other) (apart : caller ≠ other)
    (calls : s'.calls = s.calls.modify caller fun call => { call with phase }) :
    s'.Active other := by
  rwa [State.Active, calls, getElem?_modify_phase, if_neg apart]

theorem State.Active.started {s : State} {caller : Nat} (active : s.Active caller) (task : Task) :
    (s.start task).2.Active caller := by
  obtain ⟨own, found⟩ := active
  have within := (List.getElem?_eq_some_iff.mp found).choose
  exact ⟨own, (List.getElem?_append_left within).trans found⟩

/-- Before there is an outcome, whoever waits for the turn or has it goes on; afterwards nobody
does either. -/
structure InLine (s : State) : Prop where
  waiting : ∀ caller ∈ s.queue, s.Active caller
  once : s.queue.Nodup
  holder : ∀ caller, holdsTurn s caller = true → s.Active caller
  free : s.turn = .free → s.queue = []
  settled : s.outcome ≠ none → s.turn = .free
  running : s.outcome = none → s.halted = none

namespace InLine

variable {s : State}

theorem start (line : InLine s) (task : Task) : InLine (s.start task).2 :=
  ⟨fun caller waits => (line.waiting caller waits).started task, line.once,
    fun caller holds => (line.holder caller holds).started task, line.free, line.settled,
    line.running⟩

theorem deliver (line : InLine s) (slot : Nat) (mail : Mail) :
    InLine (Runner.deliver s slot mail).2 := by
  rw [Runner.deliver]
  split
  · rename_i b taken
    split
    · refine ⟨line.waiting, line.once, fun caller holds => ?_, (by rintro ⟨⟩),
        fun settled => ?_, line.running⟩
      · refine line.holder caller ?_
        rw [holdsTurn, taken]
        exact holds
      · cases taken.symm.trans (line.settled settled)
    · exact line
  · exact line

theorem cancel_inactive {caller : Nat} (inactive : ¬ s.Active caller) : cancel s caller = s := by
  unfold cancel
  split
  · exact absurd ⟨_, ‹_›⟩ inactive
  · rfl

theorem cancel_cases {caller : Nat} (active : s.Active caller) :
    (cancel s caller).calls = (s.calls.modify caller fun call => { call with phase := .cancelled }) ∧
    (cancel s caller).outcome = s.outcome ∧ (cancel s caller).halted = s.halted ∧
    (cancel s caller).now = s.now ∧ (cancel s caller).slots = s.slots ∧
    (holdsTurn s caller = false ∧ (cancel s caller).turn = s.turn ∧
        (cancel s caller).queue = s.queue.erase caller ∨
      holdsTurn s caller = true ∧ s.queue.erase caller = [] ∧ (cancel s caller).turn = .free ∧
        (cancel s caller).queue = [] ∨
      holdsTurn s caller = true ∧ ∃ next, s.queue.erase caller = next :: (cancel s caller).queue ∧
        (cancel s caller).turn = .granted next) := by
  obtain ⟨task, found⟩ := active
  simp only [cancel, found]
  split
  · rename_i holds
    unfold passTurn
    split
    · rename_i empty
      exact ⟨rfl, rfl, rfl, rfl, rfl, .inr (.inl ⟨holds, empty, rfl, empty⟩)⟩
    · rename_i next rest line
      exact ⟨rfl, rfl, rfl, rfl, rfl, .inr (.inr ⟨holds, next, line, rfl⟩)⟩
  · rename_i bystander
    exact ⟨rfl, rfl, rfl, rfl, rfl, .inl ⟨eq_false_of_ne_true bystander, rfl, rfl⟩⟩

theorem cancel (line : InLine s) (caller : Nat) : InLine (Runner.cancel s caller) := by
  by_cases active : s.Active caller
  · obtain ⟨calls, outcome, halted, -, -, turn⟩ := cancel_cases active
    have others : ∀ other, caller ≠ other → s.Active other → (Runner.cancel s caller).Active other :=
      fun other apart going => going.modified apart calls
    have left : ∀ other ∈ s.queue.erase caller, (Runner.cancel s caller).Active other := by
      intro other waits
      obtain ⟨apart, waits⟩ := (List.Nodup.mem_erase_iff line.once).mp waits
      exact others other apart.symm (line.waiting other waits)
    have once : (s.queue.erase caller).Nodup := line.once.erase caller
    have running : (Runner.cancel s caller).outcome = none →
        (Runner.cancel s caller).halted = none := by
      rw [outcome, halted]
      exact line.running
    rcases turn with ⟨bystander, turn, queue⟩ | ⟨holds, empty, turn, queue⟩ | ⟨holds, next, rest, turn⟩
    · refine ⟨queue ▸ left, queue ▸ once, fun other holds => ?_, fun free => ?_, ?_, running⟩
      · rw [holdsTurn, turn, ← holdsTurn] at holds
        refine others other ?_ (line.holder other holds)
        rintro rfl
        exact absurd holds (by rw [bystander]; nofun)
      · rw [queue, line.free (turn ▸ free)]
        rfl
      · rw [outcome, turn]
        exact line.settled
    · refine ⟨queue ▸ nofun, queue ▸ List.nodup_nil, fun other holds => ?_, fun _ => queue,
        fun _ => turn, running⟩
      rw [holdsTurn, turn] at holds
      cases holds
    · rw [rest] at left once
      refine ⟨fun other waits => left other (List.mem_cons_of_mem _ waits),
        (List.nodup_cons.mp once).2, fun other holds => ?_, fun free => ?_, fun settled => ?_, running⟩
      · rw [holdsTurn, turn] at holds
        obtain rfl := of_decide_eq_true holds
        exact left next List.mem_cons_self
      · cases turn.symm.trans free
      · -- Nobody holds the turn once there is an outcome.
        rw [holdsTurn, line.settled (outcome ▸ settled)] at holds
        cases holds
  · rw [cancel_inactive active]
    exact line

end InLine

theorem Stirs.settled {budget : Duration} {s s' : State} {caller : Nat} {launches : List Launch}
    (stirs : Stirs budget s caller launches s') (line : InLine s) (settled : s'.outcome ≠ none) :
    s'.turn = .free ∧ s'.queue = [] := by
  have ended : ∀ {b : Bootstrap} {start : State}, Looked budget start b s' →
      s'.turn = .free ∧ s'.queue = [] := by
    intro b start looked
    cases looked with
    | waits verdict outcome turn queue => exact absurd outcome settled
    | ends verdict after turn queue => exact ⟨turn, queue⟩
  cases stirs with
  | aside outcome turn queue =>
    have free := line.settled (outcome ▸ settled)
    exact ⟨turn.trans free, queue.trans (line.free free)⟩
  | queues active unsettled held fresh outcome turn queue => exact absurd outcome settled
  | looks active unsettled taken own looked => exact ended looked
  | launches active unsettled idle started looked => exact ended looked
  | fails active unsettled idle refused after turn queue => exact ⟨turn, queue⟩

theorem InLine.poll {budget : Duration} {s s' : State} {caller : Nat} {launches : List Launch}
    {record : List Execution} (line : InLine s) (stirs : Stirs budget s caller launches s')
    (polled : Polled s caller record s') : InLine s' := by
  by_cases unsettled : s'.outcome = none
  · obtain ⟨calls, before, halted⟩ :
        s'.calls = s.calls ∧ s'.outcome = s.outcome ∧ s'.halted = s.halted := by
      cases polled with
      | waits calls outcome halted => exact ⟨calls, outcome, halted⟩
      | concludes found running settled after => exact nomatch unsettled.symm.trans after
    have kept : ∀ other, s.Active other → s'.Active other := fun other active => active.of_calls calls
    have running : s'.outcome = none → s'.halted = none :=
      fun _ => halted.trans (line.running (before.symm.trans unsettled))
    have waits : ∀ {b : Bootstrap} {start : State}, s.Active caller → b.caller = caller →
        start.queue = s.queue → Looked budget start b s' → InLine s' := by
      intro b start active own same looked
      cases looked with
      | ends verdict after => exact nomatch unsettled.symm.trans after
      | waits verdict outcome turn queue =>
        rw [same] at queue
        refine ⟨fun other waits => kept other (line.waiting other (queue ▸ waits)),
          queue ▸ line.once, fun other holds => ?_, ?_, fun settled => absurd unsettled settled,
          running⟩
        · rw [holdsTurn, turn] at holds
          exact of_decide_eq_true holds ▸ own ▸ kept caller active
        · rw [turn]
          nofun
    cases stirs with
    | aside outcome turn queue =>
      refine ⟨fun other waits => kept other (line.waiting other (queue ▸ waits)),
        queue ▸ line.once, fun other holds => kept other (line.holder other ?_), ?_,
        fun settled => absurd unsettled settled, running⟩
      · rwa [holdsTurn, turn, ← holdsTurn] at holds
      · rw [turn, queue]
        exact line.free
    | queues active _ held fresh outcome turn queue =>
      refine ⟨fun other waits => ?_, ?_, fun other holds => kept other (line.holder other ?_), ?_,
        fun settled => absurd unsettled settled, running⟩
      · rw [queue] at waits
        rcases List.mem_append.mp waits with before | new
        · exact kept other (line.waiting other before)
        · exact List.mem_singleton.mp new ▸ kept caller active
      · rw [queue]
        exact line.once.append (List.nodup_singleton caller) (by simpa using fresh)
      · rwa [holdsTurn, turn, ← holdsTurn] at holds
      · rw [turn]
        exact fun free => absurd free held
    | looks active _ taken own looked => exact waits active own rfl looked
    | launches active _ idle started looked => exact waits active rfl rfl looked
    | fails active _ idle refused after => exact nomatch unsettled.symm.trans after
  · obtain ⟨turn, queue⟩ := stirs.settled line unsettled
    refine ⟨queue ▸ nofun, queue ▸ List.nodup_nil, fun other holds => ?_, fun _ => queue,
      fun _ => turn, fun none => absurd none unsettled⟩
    rw [holdsTurn, turn] at holds
    cases holds

end Sandbox.Runner

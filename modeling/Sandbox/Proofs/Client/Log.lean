import Sandbox.Client.Play
import Sandbox.Proofs.Client.Verdict

namespace Sandbox.Client

variable {σ : Type}

def Grown (record : List Effect) (logged : σ × List Effect) (effects : List Effect) : Prop :=
  logged.2 = record ++ effects

theorem step_grows (contexts : Contexts σ) (settings : Settings) (s : State) (w : σ)
    (record : List Effect) (action : Action) :
    ∃ effects, step contexts.recorded settings (s, w, record) action =
      ((step contexts settings (s, w) action).1, (step contexts settings (s, w) action).2,
        record ++ effects) := by
  -- The effects are those of a second log, which begins with the action.
  have start : Grown record (w, record) [] := (List.append_nil record).symm
  have post : ∀ logged effects generation request result posted, Grown record logged effects →
      contexts.recorded.post logged generation request = (result, posted) →
        Grown record posted (effects ++ [.posted generation request result]) := by
    rintro logged effects generation request _ _ grown ⟨⟩
    exact (congrArg (· ++ _) grown).trans (List.append_assoc ..)
  have destroy : ∀ logged effects generation, Grown record logged effects →
      Grown record (contexts.recorded.destroy logged generation)
        (effects ++ [.destroyed generation]) := by
    intro logged effects generation grown
    exact (congrArg (· ++ _) grown).trans (List.append_assoc ..)
  have create : ∀ result made,
      contexts.recorded.create (w, record) (s.generation + 1) = (result, made) →
        Grown record made [.created (s.generation + 1) result] := by
    rintro _ _ ⟨⟩
    rfl
  have kept := step_keeps settings post destroy start create action
  have inner := step_forget contexts.recorded settings s (w, record) [] action
  have outer := step_forget contexts settings s w record action
  generalize step contexts.recorded.recorded settings (s, (w, record), []) action = twice at *
  refine ⟨twice.2.2, ?_⟩
  rw [← inner] at outer ⊢
  rw [← outer]
  exact congrArg (twice.1, twice.2.1.1, ·) kept

def World.recorded (world : World σ) : World (σ × List Effect) where
  contexts := world.contexts.recorded
  move := fun (w, record) => (world.move w, record)
  takeEvents := fun (w, record) => ((world.takeEvents w).1, (world.takeEvents w).2, record)
  moments := fun (w, _) => world.moments w
  setClock := fun (w, record) now => (world.setClock w now, record)

namespace Play

def recorded (p : Play σ) (record : List Effect) : Play (σ × List Effect) where
  world := p.world.recorded
  settings := p.settings
  client := p.client
  scene := (p.scene, record)
  able := p.able
  leaving := p.leaving

def Logs (record : List Effect) (p : Play σ) (q : Play (σ × List Effect)) : Prop :=
  ∃ more, q = p.recorded (record ++ more)

namespace Logs

variable {record : List Effect} {p : Play σ} {q : Play (σ × List Effect)}

theorem act (logs : Logs record p q) (action : Action) :
    Logs record (p.act action) (q.act action) := by
  obtain ⟨more, rfl⟩ := logs
  obtain ⟨effects, stepped⟩ :=
    step_grows p.world.contexts p.settings p.client p.scene (record ++ more) action
  refine ⟨more ++ effects, ?_⟩
  rw [← List.append_assoc]
  exact congrArg (fun result : State × σ × List Effect => Play.note
    { p.recorded (record ++ more) with client := result.1, scene := result.2 }) stepped

theorem goOn (logs : Logs record p q) (caller : Nat) :
    Logs record (p.goOn caller) (q.goOn caller) := by
  unfold Play.goOn
  generalize 4 = sections
  induction sections with
  | zero => exact logs
  | succ sections ih =>
    simp only [Nat.repeat]
    generalize Nat.repeat _ sections p = p at ih
    generalize Nat.repeat _ sections q = q at ih
    obtain ⟨more, rfl⟩ := ih
    change Logs record _ (if (p.client.phase? caller).any (·.canProceed p.client.now) then _ else _)
    split
    · exact act ⟨more, rfl⟩ _
    · exact ⟨more, rfl⟩

theorem foldl {α : Type} {f : Play σ → α → Play σ}
    {g : Play (σ × List Effect) → α → Play (σ × List Effect)}
    (one : ∀ {p q}, Logs record p q → ∀ a, Logs record (f p a) (g q a)) (logs : Logs record p q)
    (list : List α) : Logs record (list.foldl f p) (list.foldl g q) := by
  induction list generalizing p q with
  | nil => exact logs
  | cons a rest ih => exact ih (one logs a)

theorem goOnAll (logs : Logs record p q) : Logs record p.goOnAll q.goOnAll := by
  have able : q.able = p.able := by
    obtain ⟨more, rfl⟩ := logs
    rfl
  unfold Play.goOnAll
  rw [able]
  refine foldl (fun logs caller => ?_) logs _
  obtain ⟨more, gone⟩ := logs.goOn caller
  exact ⟨more, by rw [gone]; rfl⟩

theorem takeEvents (logs : Logs record p q) (events : List (Nat × Event)) :
    Logs record (p.takeEvents events) (q.takeEvents events) :=
  foldl (fun logs (generation, event) => logs.act (.event generation event)) logs events

theorem settleFor (logs : Logs record p q) (rounds : Nat) :
    Logs record (Play.settleFor rounds p) (Play.settleFor rounds q) := by
  induction rounds generalizing p q with
  | zero => exact logs
  | succ rounds ih =>
    obtain ⟨more, rfl⟩ := logs
    obtain ⟨events, scene, taken⟩ : ∃ events scene,
        p.world.takeEvents (p.world.move p.scene) = (events, scene) := ⟨_, _, rfl⟩
    have moves : Logs record { p with scene } ({ p with scene }.recorded (record ++ more)) :=
      ⟨more, rfl⟩
    simp only [Play.settleFor, Play.recorded, World.recorded, taken]
    split
    · exact moves
    · exact ih (moves.takeEvents events).goOnAll

theorem leave (logs : Logs record p q) : Logs record p.leave q.leave := by
  obtain ⟨more, rfl⟩ := logs
  change Logs record (if p.leaving ∧ !p.client.dropped then _ else _)
    (if p.leaving ∧ !p.client.dropped then _ else _)
  split
  · exact act ⟨more, rfl⟩ _
  · exact ⟨more, rfl⟩

theorem settle (logs : Logs record p q) : Logs record p.settle q.settle := by
  have calls : q.client.calls.length = p.client.calls.length := by
    obtain ⟨more, rfl⟩ := logs
    rfl
  unfold Play.settle
  rw [calls]
  exact (logs.goOnAll.settleFor _).leave

theorem moveTo (logs : Logs record p q) (moment : Duration) :
    Logs record (p.moveTo moment) (q.moveTo moment) := by
  obtain ⟨more, rfl⟩ := logs
  have clocked : Logs record { p with scene := p.world.setClock p.scene moment }
      ({ p with scene := p.world.setClock p.scene moment }.recorded (record ++ more)) :=
    ⟨more, rfl⟩
  exact (clocked.act _).settle

theorem finishFor (logs : Logs record p q) (callers : List Nat) (moments : Nat) :
    Logs record (Play.finishFor callers moments p) (Play.finishFor callers moments q) := by
  induction moments generalizing p q with
  | zero => exact logs
  | succ moments ih =>
    obtain ⟨more, rfl⟩ := logs
    have logs : Logs record p (p.recorded (record ++ more)) := ⟨more, rfl⟩
    change Logs record (if callers.all p.hasEnded then p else _)
      (if callers.all p.hasEnded then p.recorded (record ++ more) else _)
    split
    · exact logs
    · cases next : p.next? with
      | none =>
        have next' : (p.recorded (record ++ more)).next? = none := next
        simp only [next']
        exact logs
      | some moment =>
        have next' : (p.recorded (record ++ more)).next? = some moment := next
        simp only [next']
        exact ih (logs.moveTo moment)

theorem finish (logs : Logs record p q) (callers : List Nat) :
    Logs record (p.finish callers) (q.finish callers) := by
  have calls : q.client.calls.length = p.client.calls.length := by
    obtain ⟨more, rfl⟩ := logs
    rfl
  unfold Play.finish
  rw [calls]
  exact logs.settle.finishFor callers _

end Logs

theorem creates (p : Play σ) (absent : p.client.live = none) (kept : p.client.dropped = false)
    (ask : Ask) (callers : List Nat) :
    ∃ log, ((p.recorded []).act (.begin ask)).finish callers =
        ((p.act (.begin ask)).finish callers).recorded log ∧
      ∃ result, .created (p.client.generation + 1) result ∈ log := by
  have start : Logs [] p (p.recorded []) := ⟨[], rfl⟩
  obtain ⟨effects, begun⟩ := start.act (.begin ask)
  have log : effects = (transition p.world.contexts p.settings p.client p.scene
      (.begin ask)).effects := congrArg (fun q => q.scene.2) begun.symm
  have begins : Logs effects (p.act (.begin ask)) ((p.recorded []).act (.begin ask)) :=
    ⟨[], begun.trans (by rw [List.nil_append, List.append_nil])⟩
  obtain ⟨more, finished⟩ := begins.finish callers
  obtain ⟨result, created⟩ :=
    begin_creates p.world.contexts p.settings absent kept p.scene ask
  exact ⟨effects ++ more, finished, result, List.mem_append_left _ (log ▸ created)⟩

end Play

end Sandbox.Client

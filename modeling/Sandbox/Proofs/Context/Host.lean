import Sandbox.Proofs.Context.House

namespace Sandbox.Context

open Client (Change Course Effect Event Transition)

structure Host (σ : Type) where
  client : Client.State := {}
  house : House σ
  history : List Transition := []

/-- What can happen next. The events of a client come from its contexts only. -/
inductive Move
  | client (action : Client.Action)
  | deliver (generation : Nat)
  | thread (generation : Nat) (action : Thread.Action)
  | crash (generation : Nat) (reason : String)
  | leave (generation : Nat)

namespace Host

section
variable {σ : Type} (provider : Engine.Provider σ) (budget : Duration) (settings : Client.Settings)

def act (h : Host σ) (action : Client.Action) : Host σ :=
  let (client, house) := Client.step House.contexts settings (h.client, h.house) action
  { client, house,
    history := h.history ++ [Client.transition House.contexts settings h.client h.house action] }

def onStation (h : Host σ) (generation : Nat) (change : Station → House σ) : Host σ :=
  match h.house.stations generation with
  | some station => { h with house := change station }
  | none => h

def step (h : Host σ) : Move → Host σ
  | .client (.event _ _) => h
  | .client action => h.act settings action
  | .deliver generation => match h.house.stations generation with
    | some ⟨thread, event :: rest, gone⟩ =>
      let house := h.house.put generation ⟨thread, rest, gone⟩
      { h with house }.act settings (.event generation event)
    | _ => h
  | .thread generation action => h.onStation generation fun station =>
    if station.gone then h.house else h.house.stir provider budget generation station action
  | .crash generation reason => h.onStation generation fun station =>
    h.house.put generation { station with mail := station.mail ++ [.crashed reason] }
  | .leave generation => h.onStation generation fun station =>
    h.house.put generation { station with gone := true }

def run (h : Host σ) (moves : List Move) : Host σ := moves.foldl (step provider budget settings) h

end

end Host

def toldBy : Client.Action → Option (Nat × Response)
  | .event generation (.response response) => some (generation, response)
  | _ => none

def told (history : List Transition) : List (Nat × Response) :=
  history.filterMap fun t => toldBy t.action

def done (history : List Transition) : List Effect := history.flatMap Transition.effects

structure Host.Coherent {σ : Type} (settings : Client.Settings) (h : Host σ) : Prop where
  course : Course settings h.history h.client
  kept : h.house.Kept (done h.history) (told h.history)

namespace Host.Coherent

variable {σ : Type} {settings : Client.Settings} {h : Host σ}

theorem start (w : σ) (births : Nat → Except String Duration) :
    Coherent settings { house := { engines := w, births } : Host σ } := by
  refine ⟨.start, ?_, ?_, ?_, ?_, ?_, ?_⟩
  · exact fun _ _ held => nomatch held
  · exact fun _ _ => ⟨rfl, rfl⟩
  · exact fun _ member => nomatch member
  · exact fun _ _ held => nomatch held
  · exact fun _ member => nomatch member
  · exact fun _ member => nomatch member

theorem act (course : Course settings h.history h.client) {action : Client.Action}
    (kept : h.house.Kept (done h.history) (told h.history ++ (toldBy action).toList)) :
    Coherent settings (h.act settings action) := by
  have created : (done h.history).filterMap Effect.creation? = List.range' 1 h.client.generation := by
    rw [done, List.filterMap_flatMap]
    exact course.numbered.created
  have fresh : h.client.generation + 1 ∉ (done h.history).filterMap Effect.creation? := by
    rw [created, List.mem_range'_1]
    omega
  let told' := told h.history ++ (toldBy action).toList
  have kept' : Client.Keeps (fun house record => house.Kept (done h.history ++ record) told')
      (Client.step House.contexts.recorded settings (h.client, h.house, []) action) := by
    refine Client.step_keeps settings ?_ ?_ ?_ ?_ action
    · intro house record generation request result posted before eq
      rw [← List.append_assoc]
      exact before.post eq
    · intro house record generation before
      rw [← List.append_assoc]
      exact before.destroy generation
    · rw [List.append_nil]
      exact kept
    · intro result made eq
      exact kept.create fresh eq
  have same := Client.step_forget House.contexts settings h.client h.house [] action
  have house : (Client.step House.contexts.recorded settings (h.client, h.house, []) action).2.1 =
      (Client.step House.contexts settings (h.client, h.house) action).2 := congrArg Prod.snd same
  let t := Client.transition House.contexts settings h.client h.house action
  refine ⟨?_, ?_⟩
  · have extended : Course settings (h.history ++ [t])
        (Client.step House.contexts settings (h.client, h.house) action).1 := by
      rw [← Client.transition_after]
      exact course.extend (Client.transition_change _ _ _ _ _)
    exact extended
  · have done_more : done (h.history ++ [t]) = done h.history ++ t.effects := by
      rw [done, List.flatMap_append, List.flatMap_singleton]
      rfl
    have told_more : told (h.history ++ [t]) = told' := by
      rw [told, List.filterMap_append]
      congr 1
    change (Client.step House.contexts settings (h.client, h.house) action).2.Kept
      (done (h.history ++ [t])) (told (h.history ++ [t]))
    rw [done_more, told_more, ← house]
    exact kept'

theorem step (coherent : Coherent settings h) (provider : Engine.Provider σ) (budget : Duration)
    (move : Move) : Coherent settings (h.step provider budget settings move) := by
  have alone : ∀ action, toldBy action = none → Coherent settings (h.act settings action) := by
    intro action quiet
    refine act coherent.course ?_
    rw [quiet, Option.toList_none, List.append_nil]
    exact coherent.kept
  have moved : ∀ generation change, (∀ station, h.house.stations generation = some station →
      (change station).Kept (done h.history) (told h.history)) →
      Coherent settings (h.onStation generation change) := by
    intro generation change keeps
    rw [Host.onStation]
    split
    · rename_i station held
      exact ⟨coherent.course, keeps station held⟩
    · exact coherent
  cases move with
  | client action =>
    cases action with
    | event generation event => exact coherent
    | begin ask => exact alone (.begin ask) rfl
    | proceed caller => exact alone (.proceed caller) rfl
    | cancel caller => exact alone (.cancel caller) rfl
    | reset => exact alone .reset rfl
    | advance span => exact alone (.advance span) rfl
    | drop => exact alone .drop rfl
  | deliver generation =>
    rw [Host.step]
    split
    · rename_i thread event rest gone held
      have honest := coherent.kept.honest generation _ held
      have taken : Station.Honest (Client.sentTo (done h.history) generation)
          (h.house.log generation) ⟨thread, rest, gone⟩ :=
        ⟨honest.serves, fun response member => honest.mail response (List.mem_cons_of_mem _ member)⟩
      have kept := coherent.kept.replaced held (.refl thread.service.runner) taken
      let house := h.house.put generation ⟨thread, rest, gone⟩
      refine act (h := ⟨h.client, house, h.history⟩) coherent.course ?_
      cases event with
      | crashed reason =>
        have quiet : toldBy (.event generation (.crashed reason)) = none := rfl
        rw [quiet, Option.toList_none, List.append_nil]
        exact kept
      | response response =>
        have answered := honest.mail response (List.mem_cons_self ..)
        refine { kept with told := ?_ }
        intro entry member
        rcases List.mem_append.mp member with old | new
        · exact kept.told entry old
        · obtain rfl := List.mem_singleton.mp new
          exact ⟨_, if_pos rfl, answered⟩
    · exact coherent
  | thread generation action =>
    refine moved generation _ ?_
    intro station held
    split
    · exact coherent.kept
    · exact coherent.kept.stir held provider budget action
  | crash generation reason =>
    refine moved generation _ ?_
    intro station held
    have honest := coherent.kept.honest generation station held
    refine coherent.kept.replaced held (.refl _) ⟨honest.serves, ?_⟩
    intro response member
    exact honest.mail response (by simpa using member)
  | leave generation =>
    refine moved generation _ ?_
    intro station held
    have honest := coherent.kept.honest generation station held
    exact coherent.kept.replaced held (.refl _) ⟨honest.serves, honest.mail⟩

theorem run (coherent : Coherent settings h) (provider : Engine.Provider σ) (budget : Duration)
    (moves : List Move) : Coherent settings (h.run provider budget settings moves) := by
  induction moves generalizing h with
  | nil => exact coherent
  | cons move rest ih => exact ih (coherent.step provider budget move)

end Host.Coherent

end Sandbox.Context

import Sandbox.Context.Link
import Sandbox.Proofs.Frame.Split

namespace Sandbox.Context

open Client (Event)
open Sandbox.Frame (Item Source divide)

namespace Inlet

def event : Item Response → Event
  | .message response => .response response
  | .finished => .crashed "worker exited"
  | .failure cause => .crashed cause.message

def heard : List (Item Response) → List Event
  | [] => []
  | .message response :: rest => .response response :: heard rest
  | item :: _ => [event item]

def takeEach (source : Source) : Nat → Inlet → List Event × Inlet
  | 0, inlet => ([], inlet)
  | count + 1, inlet =>
    let (events, inlet) := take source inlet
    let (more, inlet) := takeEach source count inlet
    (events ++ more, inlet)

theorem takeEach_stopped (source : Source) (count : Nat) {inlet : Inlet} (stopped : inlet.stopped) :
    takeEach source count inlet = ([], inlet) := by
  induction count with
  | zero => rfl
  | succ count ih => simp only [takeEach, take, if_pos stopped, ih, List.append_nil]

theorem takeEach_heard {source : Source} (count : Nat) {taken : Nat} (started : taken ≤ source.reach) :
    (takeEach source count ⟨taken, false⟩).1 =
      heard ((Frame.reads source .async count taken).map Prod.fst) := by
  induction count generalizing taken with
  | zero => rfl
  | succ count ih =>
    obtain ⟨-, within⟩ := Frame.readFrame_stop (α := Response) .async started
    rw [takeEach, Frame.reads, take]
    generalize Frame.readFrame (α := Response) source .async taken = read at within ⊢
    obtain ⟨response | cause | _, stop⟩ := read
    · exact congrArg _ (ih within)
    · simp [takeEach_stopped, heard, event]
    · simp [takeEach_stopped, heard, event]

theorem takeArrived_closed (data : ByteArray) (count : Nat) (inlet : Inlet) :
    takeArrived data true count inlet = takeEach (.ofBytes data) count inlet := by
  induction count generalizing inlet with
  | zero => rfl
  | succ count ih =>
    rw [takeArrived, takeEach]
    by_cases stopped : inlet.stopped = true
    · simp [stopped, take, takeEach_stopped]
    · simp [stopped, Frame.arrived, ih]

structure Leads (responses : List Response) (other : Item Response) (items : List (Item Response)) :
    Prop where
  split : ∃ later, items = responses.map Item.message ++ other :: later
  other : ∀ response, other ≠ .message response

theorem exists_leads (items : List (Item Response)) {item : Item Response} (member : item ∈ items)
    (bad : ∀ response, item ≠ .message response) : ∃ responses other, Leads responses other items := by
  induction items with
  | nil => cases member
  | cons first rest ih =>
    rcases first with response | cause | _
    · rcases List.mem_cons.mp member with rfl | later
      · exact absurd rfl (bad response)
      · obtain ⟨responses, other, ⟨tail, split⟩, none⟩ := ih later
        exact ⟨response :: responses, other, ⟨tail, by rw [split]; rfl⟩, none⟩
    · exact ⟨[], .failure cause, ⟨rest, rfl⟩, nofun⟩
    · exact ⟨[], .finished, ⟨rest, rfl⟩, nofun⟩

theorem heard_take {responses : List Response} {other : Item Response}
    (bad : ∀ response, other ≠ .message response) (later : List (Item Response)) (count : Nat) :
    heard ((responses.map Item.message ++ other :: later).take count) =
      (responses.map Event.response ++ [event other]).take count := by
  induction responses generalizing count with
  | nil =>
    cases count with
    | zero => rfl
    | succ count =>
      rcases other with response | cause | _
      · exact absurd rfl (bad response)
      · simp [heard]
      · simp [heard]
  | cons response rest ih =>
    cases count with
    | zero => rfl
    | succ count => exact congrArg _ (ih count)

theorem stopped_bad (part : FramePart) (fault : Frame.ReadFault) (response : Response) :
    Item.stopped .async part fault ≠ .message response := by
  cases part <;> cases fault <;> simp [Item.stopped]

theorem event_bad {item : Item Response} (bad : ∀ response, item ≠ .message response) :
    ∃ reason, event item = .crashed reason := by
  rcases item with response | cause | _
  · exact absurd rfl (bad response)
  · exact ⟨_, rfl⟩
  · exact ⟨_, rfl⟩

def contents (source : Source) : List (Item Response) :=
  (divide (source.rest 0)).frames.map Prod.fst ++
    [.stopped .async (divide (α := Response) (source.rest 0)).part (source.ending .async)]

structure Hears (source : Source) (responses : List Response) (reason : String) : Prop where
  found : ∃ other, Leads responses other (contents source) ∧ event other = .crashed reason
  events : ∀ count, (takeEach source count {}).1 =
    (responses.map Event.response ++ [Event.crashed reason]).take count

theorem hears (source : Source) : ∃ responses reason, Hears source responses reason := by
  obtain ⟨responses, other, leads⟩ := exists_leads (contents source)
    (List.mem_append_right _ List.mem_cons_self) (stopped_bad _ _)
  obtain ⟨reason, crash⟩ := event_bad leads.other
  refine ⟨responses, reason, ⟨other, leads, crash⟩, fun count => ?_⟩
  obtain ⟨later, split⟩ := leads.split
  have read : Frame.reads (α := Response) source .async count 0 = _ :=
    Frame.reads_eq (Nat.zero_le source.reach) count
  rw [takeEach_heard count (Nat.zero_le _), read, Frame.Division.results, List.map_take,
    List.map_append, List.map_cons, List.append_cons]
  change heard ((contents source ++ _).take count) = _
  rw [split, List.append_assoc, List.cons_append, heard_take leads.other, crash]

theorem Hears.all {data : ByteArray} {responses : List Response} {reason : String}
    (hears : Hears (.ofBytes data) responses reason) :
    (takeAll data true {}).1 = responses.map Event.response ++ [.crashed reason] := by
  obtain ⟨other, ⟨⟨later, split⟩, bad⟩, -⟩ := hears.found
  have frames := Frame.length_frames_le (α := Response) ((Source.ofBytes data).rest 0)
  have size : ((Source.ofBytes data).rest 0).length = data.size := Source.length_rest 0
  have lengths := congrArg List.length split
  simp only [contents, List.length_append, List.length_map, List.length_cons, List.length_nil]
    at lengths
  rw [Inlet.takeAll, takeArrived_closed, hears.events, List.take_of_length_le]
  simp only [List.length_append, List.length_map, List.length_cons, List.length_nil]
  omega

end Inlet

end Sandbox.Context

import Sandbox.Context.Process
import Sandbox.Proofs.Context.Line

namespace Sandbox.Worker

open Runner (Service)

section
variable {σ : Type} (provider : Engine.Provider σ) (budget : Duration)

def Goes (start finish : State × σ) : Prop :=
  ∃ actions : List Action, (∀ action ∈ actions, action.fromHost = false) ∧
    run provider budget start actions = finish

namespace Goes

section
variable {provider budget} {start middle finish : State × σ}

theorem refl (start : State × σ) : Goes provider budget start start := ⟨[], by simp, rfl⟩

theorem trans (first : Goes provider budget start middle) (second : Goes provider budget middle finish) :
    Goes provider budget start finish := by
  obtain ⟨before, own, rfl⟩ := first
  obtain ⟨after, own', rfl⟩ := second
  refine ⟨before ++ after, fun action member => ?_, List.foldl_append⟩
  exact (List.mem_append.mp member).elim (own action) (own' action)

end

theorem single (start : State × σ) (action : Action) (own : action.fromHost = false) :
    Goes provider budget start (step provider budget start action) :=
  ⟨[action], by simp [own], rfl⟩

theorem readFor (frames : Nat) (s : State) (w : σ) :
    Goes provider budget (s, w) (readFor frames s, w) := by
  induction frames generalizing s with
  | zero => exact refl _
  | succ frames ih =>
    have first : Goes provider budget (s, w) (read s, w) := single _ _ _ .read rfl
    rw [Worker.readFor]
    split
    · exact first.trans (ih (read s))
    · exact refl _

theorem receives (count : Nat) {s : State} (stays : s.exit = none) (w : σ) :
    Goes provider budget (s, w) ({ s with service := Nat.repeat Service.receive count s.service }, w) := by
  induction count with
  | zero => exact refl _
  | succ count ih =>
    let before : State := { s with service := Nat.repeat Service.receive count s.service }
    have received : Goes provider budget (before, w) (onService before Service.receive, w) :=
      single _ _ _ .receive rfl
    rw [onService, if_neg (by simp [before, stays])] at received
    exact ih.trans received

theorem polls (callers : List Nat) {s : State} (stays : s.exit = none) (w : σ) :
    Goes provider budget (s, w)
      ({ s with service :=
          (callers.foldl (fun (s, w) caller => Service.poll provider budget s w caller) (s.service, w)).1 },
        (callers.foldl (fun (s, w) caller => Service.poll provider budget s w caller) (s.service, w)).2) := by
  induction callers generalizing s w with
  | nil => exact refl _
  | cons caller rest ih =>
    have polled : Goes provider budget (s, w) (poll provider budget s w caller) :=
      single _ _ _ (.poll caller) rfl
    rw [poll, if_neg (by simp [stays])] at polled
    let after := (Service.poll provider budget s.service w caller).1
    exact polled.trans (ih (s := { s with service := after }) stays _)

theorem writes (count : Nat) (s : State) (w : σ) :
    Goes provider budget (s, w) (Nat.repeat write count s, w) := by
  induction count with
  | zero => exact refl _
  | succ count ih => exact ih.trans (single _ _ _ .write rfl)

theorem round (s : State) (w : σ) : Goes provider budget (s, w) (round provider budget s w) := by
  have reads : Goes provider budget (s, w) (readAll s, w) := readFor _ _ _ s w
  rw [Worker.round]
  generalize readAll s = s at reads ⊢
  dsimp only
  split
  · exact reads
  rename_i stays
  have stays : s.exit = none := by simpa using stays
  have received := receives provider budget (s.service.inbox.length + 1) stays w
  have polled := polls provider budget s.service.receiveAll.active
    (s := { s with service := s.service.receiveAll }) stays w
  refine reads.trans (received.trans (polled.trans ?_))
  exact (writes _ _ _ _ _).trans (single _ _ _ .leave rfl)

end Goes

end

end Sandbox.Worker

namespace Sandbox.Context

open Client (Event)
open Sandbox.Frame (Sink)

namespace Line

section
variable {σ : Type} (provider : Engine.Provider σ) (budget : Duration)

theorem run_work {w w' : σ} {worker : Worker.State} (line : Line)
    (goes : Worker.Goes provider budget (line.worker, w) (worker, w')) : ∃ moves handed,
    run provider budget (line, w) moves = ({ line with worker, handed }, w') := by
  obtain ⟨actions, own, ran⟩ := goes
  induction actions generalizing line w with
  | nil =>
    cases ran
    exact ⟨[], line.handed, rfl⟩
  | cons action rest ih =>
    obtain ⟨moves, handed, played⟩ := ih (line.work provider budget w action).1
      (fun later member => own later (List.mem_cons_of_mem _ member)) ran
    refine ⟨.work action :: moves, handed, ?_⟩
    rw [run, List.foldl_cons, step, if_neg (by simp [own action List.mem_cons_self])]
    exact played

theorem run_takes (count : Nat) (line : Line) (w : σ) : ∃ moves,
    run provider budget (line, w) moves =
      ({ line with
        inlet := (line.inlet.takeArrived line.worker.output line.worker.exit.isSome count).2
        told := line.told ++
          (line.inlet.takeArrived line.worker.output line.worker.exit.isSome count).1 }, w) := by
  induction count generalizing line with
  | zero => exact ⟨[], by simp [run, Inlet.takeArrived]⟩
  | succ count ih =>
    by_cases may : line.canTake = true
    · obtain ⟨moves, played⟩ := ih line.take
      refine ⟨.take :: moves, ?_⟩
      rw [run, List.foldl_cons, step]
      refine played.trans ?_
      simp only [take, may, if_true, List.append_assoc]
      rw [canTake] at may
      simp only [Inlet.takeArrived, may, if_true]
    · refine ⟨[], ?_⟩
      rw [canTake] at may
      simp only [Inlet.takeArrived, if_neg may, List.append_nil]
      rfl

theorem run_sends (pipe : Sink) (queue : List Request) (line : Line) (waits : line.queue = queue)
    (w : σ) : ∃ moves writes,
    run provider budget (line, w) moves =
      ({ line with
        queue := []
        outlet := (Outlet.sendAll pipe line.outlet queue).2.2
        transit := line.transit ++ (Outlet.sendAll pipe line.outlet queue).1
        sent := line.sent ++ (Outlet.sendAll pipe line.outlet queue).1
        writes
        reports := line.reports ++ (Outlet.sendAll pipe line.outlet queue).2.1 }, w) := by
  induction queue generalizing line with
  | nil =>
    refine ⟨[], line.writes, ?_⟩
    simp only [Outlet.sendAll, ByteArray.append_empty, List.append_nil, ← waits]
    rfl
  | cons request queue ih =>
    obtain ⟨moves, writes, played⟩ := ih (line.send pipe) (by simp only [send, waits])
    refine ⟨.send pipe :: moves, writes, ?_⟩
    rw [run, List.foldl_cons, step]
    refine played.trans ?_
    simp only [send, waits, Outlet.sendAll, ByteArray.append_assoc, List.append_assoc]

theorem step_carry {line : Line} (sound : Sound line) (w : σ) :
    step provider budget (line, w) (.carry line.transit.size) =
      ({ line with
        transit := ByteArray.empty
        worker := { line.worker with input := line.worker.input ++ line.transit } }, w) := by
  have behind : line.transit.extract line.transit.size line.transit.size = ByteArray.empty := by simp
  have all : line.transit.extract 0 line.transit.size = line.transit := by simp
  rw [step, behind, all]
  simp only [work, Worker.step, Worker.State.takes?, Option.toList_none, List.append_nil]
  split
  · -- A pipe that is closed has nothing in it.
    rename_i closed
    rw [(sound.closed closed).2, ByteArray.append_empty]
  · rfl

theorem step_hangUp {line : Line} (carried : line.transit = ByteArray.empty) (w : σ) :
    step provider budget (line, w) .hangUp =
      ({ line with worker :=
          if line.outlet.stopped then { line.worker with closed := true } else line.worker }, w) := by
  rw [step]
  split
  · rename_i may
    simp [work, Worker.step, Worker.State.takes?, may.1]
  · rename_i going
    simp only [carried, and_true] at going
    rw [if_neg going]

theorem run_handOver {line : Line} (sound : Sound line) (w : σ) :
    run provider budget (line, w) [.carry line.transit.size, .hangUp] =
      ({ line with
        transit := ByteArray.empty
        worker := { line.worker with
          input := line.worker.input ++ line.transit
          closed := line.outlet.stopped || line.worker.closed } }, w) := by
  rw [run, List.foldl_cons, step_carry provider budget sound, List.foldl_cons,
    step_hangUp provider budget rfl]
  cases line.outlet.stopped <;> rfl

end

end Line

namespace Process

inductive Deed
  | post (request : Request)
  | round

def Deed.post? : Deed → Option Request
  | .post request => some request
  | .round => none

def act (p : Process) : Deed → List Event × Process
  | .post request => ([], (p.post request).2)
  | .round => p.round

def play : Process → List Deed → List Event × Process
  | p, [] => ([], p)
  | p, deed :: rest =>
    let (events, p) := p.act deed
    let (more, p) := play p rest
    (events ++ more, p)

theorem play_append (p : Process) (first second : List Deed) :
    p.play (first ++ second) =
      ((p.play first).1 ++ ((p.play first).2.play second).1, ((p.play first).2.play second).2) := by
  induction first generalizing p with
  | nil => rfl
  | cons deed rest ih => simp only [List.cons_append, play, ih, List.append_assoc]

section
variable (path : String) (library : Option (Engine.Library Engine.Kit.State)) (budget : Duration)

def ofLine (line : Line) (kit : Engine.Kit.State) : Process where
  child := .worker line.worker kit path library budget
  queue := line.queue
  outlet := line.outlet
  inlet := line.inlet

structure Turn (line line' : Line) (kit kit' : Engine.Kit.State) (told reports : List Event) : Prop where
  moved : ∃ moves, Line.run (Engine.Library.provider path library) budget (line, kit) moves = (line', kit')
  carried : line'.transit = ByteArray.empty
  posted : line'.posted = line.posted
  told : line'.told = line.told ++ told
  reports : line'.reports = line.reports ++ reports

variable {path library budget} {line line' line'' : Line} {kit kit' kit'' : Engine.Kit.State}
  {told more reports further : List Event}

theorem Turn.trans (first : Turn path library budget line line' kit kit' told reports)
    (second : Turn path library budget line' line'' kit' kit'' more further) :
    Turn path library budget line line'' kit kit'' (told ++ more) (reports ++ further) := by
  obtain ⟨before, ran⟩ := first.moved
  obtain ⟨after, ran'⟩ := second.moved
  refine ⟨⟨before ++ after, ?_⟩, second.carried, second.posted.trans first.posted, ?_, ?_⟩
  · rw [Line.run_append, ran, ran']
  · rw [second.told, first.told, List.append_assoc]
  · rw [second.reports, first.reports, List.append_assoc]

variable (path library budget)

theorem read_turn (carried : line.transit = ByteArray.empty) (kit : Engine.Kit.State) :
    ∃ line' events, (ofLine path library budget line kit).read =
        (events, ofLine path library budget line' kit) ∧
      Turn path library budget line line' kit kit events [] := by
  obtain ⟨moves, ran⟩ := Line.run_takes (Engine.Library.provider path library) budget
    ((line.worker.output.size - line.inlet.taken) / 4 + 1) line kit
  exact ⟨_, _, rfl, ⟨⟨moves, ran⟩, carried, rfl, rfl, (List.append_nil _).symm⟩⟩

theorem write_ofLine (line : Line) (kit : Engine.Kit.State) {bytes : ByteArray} {events : List Event}
    {outlet : Outlet} (wrote : Outlet.sendAll (ofLine path library budget line kit).pipe line.outlet
      line.queue = (bytes, events, outlet)) :
    (ofLine path library budget line kit).write =
      (events, ofLine path library budget { line with
        queue := []
        outlet
        worker := { line.worker with
          input := line.worker.input ++ bytes
          closed := outlet.stopped || line.worker.closed } } kit) := by
  simp only [ofLine] at wrote
  simp only [write, ofLine, wrote]
  cases outlet.stopped <;> rfl

theorem write_turn (sound : Line.Sound line) (carried : line.transit = ByteArray.empty)
    (kit : Engine.Kit.State) :
    ∃ line' events, (ofLine path library budget line kit).write =
        (events, ofLine path library budget line' kit) ∧
      Turn path library budget line line' kit kit [] events := by
  let provider := Engine.Library.provider path library
  let pipe := (ofLine path library budget line kit).pipe
  obtain ⟨sends, writes, sent⟩ := Line.run_sends provider budget pipe line.queue line rfl kit
  have sound' := sound.run provider budget kit sends
  have ran := Line.run_append provider budget (line, kit) sends
  simp only [sent] at sound' ran
  refine ⟨_, _, ?_, ⟨⟨_, (ran _).trans (Line.run_handOver provider budget sound' kit)⟩, rfl, rfl,
    (List.append_nil _).symm, rfl⟩⟩
  rw [carried, ByteArray.empty_append, write_ofLine path library budget line kit rfl]
  rfl

theorem work_turn (carried : line.transit = ByteArray.empty) (kit : Engine.Kit.State) :
    ∃ line' kit', { ofLine path library budget line kit with
          child := (ofLine path library budget line kit).child.round } =
        ofLine path library budget line' kit' ∧
      Turn path library budget line line' kit kit' [] [] := by
  obtain ⟨moves, handed, ran⟩ := Line.run_work (Engine.Library.provider path library) budget line
    (Worker.Goes.round _ _ line.worker kit)
  exact ⟨_, _, rfl, ⟨⟨moves, ran⟩, carried, rfl, (List.append_nil _).symm, (List.append_nil _).symm⟩⟩

theorem round_turn (sound : Line.Sound line) (carried : line.transit = ByteArray.empty)
    (kit : Engine.Kit.State) : ∃ line' kit' first second third,
    (ofLine path library budget line kit).round =
        (first ++ second ++ third, ofLine path library budget line' kit') ∧
      Turn path library budget line line' kit kit' (first ++ third) second := by
  obtain ⟨line₁, first, read, turn₁⟩ := read_turn path library budget carried kit
  obtain ⟨moves, ran⟩ := turn₁.moved
  have sound₁ := sound.run (Engine.Library.provider path library) budget kit moves
  rw [ran] at sound₁
  obtain ⟨line₂, second, wrote, turn₂⟩ := write_turn path library budget sound₁ turn₁.carried kit
  obtain ⟨line₃, kit', worked, turn₃⟩ := work_turn path library budget turn₂.carried kit
  obtain ⟨line₄, third, read', turn₄⟩ := read_turn path library budget turn₃.carried kit'
  refine ⟨line₄, kit', first, second, third, ?_, ?_⟩
  · simp only [round, read, wrote, worked, read']
  · simpa using ((turn₁.trans turn₂).trans turn₃).trans turn₄

structure Merges (events heard crashes : List Event) : Prop where
  hears : heard.Sublist events
  reports : crashes.Sublist events
  all : events.Perm (heard ++ crashes)

theorem Merges.append {events events' heard heard' crashes crashes' : List Event}
    (first : Merges events heard crashes) (second : Merges events' heard' crashes') :
    Merges (events ++ events') (heard ++ heard') (crashes ++ crashes') := by
  refine ⟨first.hears.append second.hears, first.reports.append second.reports, ?_⟩
  refine (first.all.append second.all).trans ?_
  rw [List.append_assoc, List.append_assoc]
  refine List.Perm.append_left heard ?_
  rw [← List.append_assoc, ← List.append_assoc]
  exact List.perm_append_comm.append_right crashes'

theorem Merges.round (first second third : List Event) :
    Merges (first ++ second ++ third) (first ++ third) second := by
  refine ⟨(List.sublist_append_left first second).append (.refl third), ?_, ?_⟩
  · exact (List.sublist_append_right first second).trans (List.sublist_append_left ..)
  · rw [List.append_assoc, List.append_assoc]
    exact List.Perm.append_left first List.perm_append_comm

structure Plays (line : Line) (kit : Engine.Kit.State) (deeds : List Deed) (line' : Line)
    (kit' : Engine.Kit.State) : Prop where
  moved : ∃ moves, Line.run (Engine.Library.provider path library) budget (line, kit) moves = (line', kit')
  carried : line'.transit = ByteArray.empty
  stands : ((ofLine path library budget line kit).play deeds).2 = ofLine path library budget line' kit'
  posted : ∃ more, line'.posted = line.posted ++ more ∧ more <+: deeds.filterMap Deed.post? ∧
    (line'.outlet.stopped = false → more = deeds.filterMap Deed.post?)
  merges : ∃ heard crashes, line'.told = line.told ++ heard ∧ line'.reports = line.reports ++ crashes ∧
    Merges ((ofLine path library budget line kit).play deeds).1 heard crashes

variable {path library budget}

namespace Plays

theorem append {first second : List Deed} (before : Plays path library budget line kit first line' kit')
    (after : Plays path library budget line' kit' second line'' kit'') :
    Plays path library budget line kit (first ++ second) line'' kit'' := by
  obtain ⟨moves, ran⟩ := before.moved
  obtain ⟨moves', ran'⟩ := after.moved
  obtain ⟨more, grown, front, whole⟩ := before.posted
  obtain ⟨more', grown', front', whole'⟩ := after.posted
  obtain ⟨heard, crashes, told, reports, merges⟩ := before.merges
  obtain ⟨heard', crashes', told', reports', merges'⟩ := after.merges
  have still : line'.outlet.stopped = true → Line.Still line' line'' := fun stopped => by
    have same := Line.run_still (Engine.Library.provider path library) budget stopped kit' moves'
    rwa [ran'] at same
  have stands := after.stands
  rw [← before.stands] at stands merges'
  have through := play_append (ofLine path library budget line kit) first second
  refine ⟨⟨moves ++ moves', by rw [Line.run_append, ran, ran']⟩, after.carried, ?_,
    ⟨more ++ more', ?_, ?_, ?_⟩, ⟨heard ++ heard', crashes ++ crashes', ?_, ?_, ?_⟩⟩
  · rw [through, stands]
  · rw [grown', grown, List.append_assoc]
  · rw [List.filterMap_append]
    cases stopped : line'.outlet.stopped with
    | false =>
      rw [whole stopped]
      exact (List.prefix_append_right_inj _).mpr front'
    | true =>
      obtain rfl : more' = [] := List.append_cancel_left (grown'.symm.trans
        ((still stopped).posted.trans (List.append_nil _).symm))
      rw [List.append_nil]
      exact front.trans (List.prefix_append ..)
  · intro going
    have before : line'.outlet.stopped = false := by
      by_contra stopped
      rw [(still (eq_true_of_ne_false stopped)).outlet] at going
      exact stopped going
    rw [List.filterMap_append, whole before, whole' going]
  · rw [told', told, List.append_assoc]
  · rw [reports', reports, List.append_assoc]
  · rw [through]
    exact merges.append merges'

theorem post (carried : line.transit = ByteArray.empty) (kit : Engine.Kit.State) (request : Request) :
    Plays path library budget line kit [.post request] (line.post request) kit := by
  cases stopped : line.outlet.stopped with
  | true =>
    have same : line.post request = line := by rw [Line.post, if_pos stopped]
    rw [same]
    refine ⟨⟨[], rfl⟩, carried, ?_, ⟨[], (List.append_nil _).symm, List.nil_prefix, ?_⟩,
      ⟨[], [], (List.append_nil _).symm, (List.append_nil _).symm, .refl _, .refl _, .refl _⟩⟩
    · simp [play, act, Process.post, ofLine, stopped]
    · exact fun going => absurd (stopped.symm.trans going) (by simp)
  | false =>
    have queued : line.post request =
        { line with queue := line.queue ++ [request], posted := line.posted ++ [request] } := by
      rw [Line.post, if_neg (by simp [stopped])]
    rw [queued]
    refine ⟨⟨[.post request], by rw [← queued]; rfl⟩, carried, ?_,
      ⟨[request], rfl, List.prefix_refl _, fun _ => rfl⟩,
      ⟨[], [], (List.append_nil _).symm, (List.append_nil _).symm, .refl _, .refl _, .refl _⟩⟩
    simp [play, act, Process.post, ofLine, stopped]

variable (path library budget) in
theorem round (sound : Line.Sound line) (carried : line.transit = ByteArray.empty)
    (kit : Engine.Kit.State) : ∃ line' kit', Plays path library budget line kit [.round] line' kit' := by
  obtain ⟨line', kit', first, second, third, played, turn⟩ :=
    round_turn path library budget sound carried kit
  refine ⟨line', kit', turn.moved, turn.carried, ?_,
    ⟨[], by simp [turn.posted], by simp, by simp [Deed.post?]⟩, ⟨_, _, turn.told, turn.reports, ?_⟩⟩
  · simp only [play, act, played]
  · simp only [play, act, played, List.append_nil]
    exact .round ..

end Plays

variable (path library budget)

/-- Whatever the owner of a process asks of it, it does what its line can do, and so it delivers. -/
theorem played_line (kit : Engine.Kit.State) (deeds : List Deed) :
    ∃ line kit', Plays path library budget {} kit deeds line kit' ∧ Line.Delivers line := by
  suffices played : ∃ line kit', Plays path library budget {} kit deeds line kit' ∧ Line.Sound line by
    obtain ⟨line, kit', plays, sound⟩ := played
    exact ⟨line, kit', plays, sound.delivers⟩
  induction deeds using List.reverseRecOn with
  | nil =>
    exact ⟨{}, kit, ⟨⟨[], rfl⟩, rfl, rfl, ⟨[], rfl, List.prefix_refl _, fun _ => rfl⟩,
      ⟨[], [], rfl, rfl, .refl _, .refl _, .refl _⟩⟩, .begin⟩
  | append_singleton rest deed ih =>
    obtain ⟨line, kit', plays, sound⟩ := ih
    have sound' : ∀ {line' kit''}, Plays path library budget line kit' [deed] line' kit'' →
        Line.Sound line' := fun last => by
      obtain ⟨moves, ran⟩ := last.moved
      have sound' := sound.run (Engine.Library.provider path library) budget kit' moves
      rwa [ran] at sound'
    obtain ⟨line', kit'', last⟩ :
        ∃ line' kit'', Plays path library budget line kit' [deed] line' kit'' := by
      cases deed with
      | post request => exact ⟨_, _, .post plays.carried kit' request⟩
      | round => exact Plays.round path library budget sound plays.carried kit'
    exact ⟨line', kit'', plays.append last, sound' last⟩

end

end Process

end Sandbox.Context

import Sandbox.Context.Command
import Sandbox.Proofs.Context.Inlet
import Sandbox.Proofs.Context.Round
import Sandbox.Proofs.Frame.Bytes
import Sandbox.Proofs.Text.Numeral

namespace Sandbox

namespace Environment

theorem text?_setText (env : Environment) (name value : String) :
    (env.setText name value).text? name = some value := by
  rw [text?, setText, value?_set]
  exact Frame.fromUTF8?_toUTF8 value

end Environment

namespace Setting

def Fits (count : Nat) : Prop := 1 ≤ count ∧ count ≤ 2 ^ 64 - 1

instance (count : Nat) : Decidable (Fits count) := inferInstanceAs (Decidable (_ ∧ _))

def misfit (name : String) (count : Nat) : ConfigFault :=
  if count = 0 then .zero name else .notMillis name (toString count)

theorem parseMillis_toString (name : String) (count : Nat) : parseMillis name (toString count) =
    if Fits count then .ok (.ofMillis count) else .error (.config (misfit name count)) := by
  have printed : (toString count).toList = Nat.toDigits 10 count := Nat.toList_repr
  rw [parseMillis, printed, Text.trim_toDigits, Text.Numeral.parse?_toDigits]
  by_cases bounded : count ≤ Text.Numeral.maxWord
  · rw [if_pos bounded]
    cases count with
    | zero => rfl
    | succ count => rw [if_pos ⟨Nat.succ_pos count, bounded⟩]
  · have positive : count ≠ 0 := by
      rintro rfl
      exact bounded (Nat.zero_le _)
    rw [if_neg bounded, if_neg (fun fits => bounded fits.2), misfit, if_neg positive]

end Setting

namespace Context

open Client (Event)

namespace Command

variable (command : Command)

theorem text?_environment (env : Environment) : (command.environment env).text? Setting.bootstrap =
    some (toString command.bootstrap.span.millis) := by
  rw [environment]
  cases command.engine with
  | none => exact Environment.text?_setText ..
  | some engine =>
    have apart : Setting.bootstrap ≠ Surroundings.engineSetting := by decide
    exact (Environment.text?_setText_of_ne _ _ apart).trans (Environment.text?_setText ..)

theorem boot_environment (env : Environment) : Worker.boot (command.environment env) =
    if Setting.Fits command.bootstrap.span.millis
    then .ok ⟨.ofMillis command.bootstrap.span.millis⟩
    else .error (.config (Setting.misfit Setting.bootstrap command.bootstrap.span.millis)) := by
  rw [Worker.boot, BootstrapBudget.ofEnvironment, Setting.millis, text?_environment]
  simp only [Setting.parseMillis_toString]
  split <;> rfl

theorem spawn_worker {here : Surroundings Image} (found : here.program command.worker = .ok .worker) :
    command.spawn here =
      .ok { child := start { here with env := command.environment here.env } .worker } := by
  rw [spawn, found]

end Command

theorem Inlet.takeAll_empty (inlet : Inlet) : inlet.takeAll ByteArray.empty true =
    (if inlet.stopped then [] else [.crashed "worker exited"], { inlet with stopped := true }) := by
  obtain ⟨taken, stopped⟩ := inlet
  have once : (ByteArray.empty.size - taken) / 4 + 1 = 1 := by simp
  have drained : Frame.readFrame (α := Response) (.ofBytes ByteArray.empty) .async taken =
      (.finished, taken) := Frame.readFrame_drained (Nat.zero_le taken)
  rw [takeAll, takeArrived_closed, once]
  cases stopped <;> simp [takeEach, take, drained]

theorem Outlet.Sends.crashed {outlet after : Outlet} {request : Request}
    {outcome : Except Failure Unit} {bytes : ByteArray} {events : List Event}
    (sends : outlet.Sends request outcome bytes events after) :
    ∀ event ∈ events, ∃ reason, event = .crashed reason := by
  cases sends with
  | whole encoded => simp
  | broken encoded part cause => simp
  | oversized unframed => simp

theorem Outlet.crashed_sendAll (pipe : Frame.Sink) (outlet : Outlet) (requests : List Request) :
    ∀ event ∈ (outlet.sendAll pipe requests).2.1, ∃ reason, event = .crashed reason := by
  induction requests generalizing outlet with
  | nil => simp [sendAll]
  | cons request rest ih =>
    have first : ∀ event ∈ (outlet.send pipe request).2.1, ∃ reason, event = .crashed reason := by
      cases stopped : outlet.stopped with
      | true => simp [send, stopped]
      | false => exact (outlet.sends stopped pipe request).crashed
    intro event member
    exact (List.mem_append.mp member).elim (first event) (ih _ event)

namespace Process

variable {p : Process}

theorem round_ended (ended : p.child = .ended) : ∃ reports outlet,
    (∀ event ∈ reports, ∃ reason, event = .crashed reason) ∧
      p.round = ((if p.inlet.stopped then [] else [.crashed "worker exited"]) ++ reports,
        { p with queue := [], outlet, inlet := { p.inlet with stopped := true } }) := by
  obtain ⟨child, queue, killed, outlet, inlet⟩ := p
  obtain rfl : child = .ended := ended
  let pipe := pipe ⟨.ended, queue, killed, outlet, { inlet with stopped := true }⟩
  refine ⟨(outlet.sendAll pipe queue).2.1, (outlet.sendAll pipe queue).2.2,
    Outlet.crashed_sendAll pipe outlet queue, ?_⟩
  simp only [round, read, write, Child.output, Child.hasEnded, Child.feed, Child.closeInput,
    Child.round, Inlet.takeAll_empty, ite_self]
  simp [pipe]

theorem post_eq (p : Process) (request : Request) : ∃ queue, (p.post request).2 = { p with queue } := by
  rw [post]
  split
  · exact ⟨p.queue, rfl⟩
  · split
    · exact ⟨p.queue, rfl⟩
    · exact ⟨p.queue ++ [request], rfl⟩

theorem play_ended (ended : p.child = .ended) (deeds : List Deed) :
    ∀ event ∈ (p.play deeds).1, ∃ reason, event = .crashed reason := by
  induction deeds generalizing p with
  | nil => simp [play]
  | cons deed rest ih =>
    cases deed with
    | post request =>
      obtain ⟨queue, posted⟩ := p.post_eq request
      simpa only [play, act, posted, List.nil_append] using ih (p := { p with queue }) ended
    | round =>
      obtain ⟨reports, outlet, crashes, turned⟩ := round_ended ended
      simp only [play, act, turned]
      intro event member
      rcases List.mem_append.mp member with now | later
      · rcases List.mem_append.mp now with exits | writes
        · split at exits
          · cases exits
          · exact ⟨_, List.mem_singleton.mp exits⟩
        · exact crashes event writes
      · refine ih ?_ event later
        exact ended

theorem exited_mem_play (ended : p.child = .ended) (listens : p.inlet.stopped = false)
    {deeds : List Deed} (turn : Deed.round ∈ deeds) :
    Event.crashed "worker exited" ∈ (p.play deeds).1 := by
  induction deeds generalizing p with
  | nil => cases turn
  | cons deed rest ih =>
    cases deed with
    | post request =>
      obtain ⟨queue, posted⟩ := p.post_eq request
      simp only [play, act, posted, List.nil_append]
      refine ih ended listens ?_
      simpa using turn
    | round =>
      obtain ⟨reports, outlet, -, turned⟩ := round_ended ended
      simp [play, act, turned, listens]

end Process

/-- What a launch with a budget comes to, whatever else is in the environment. The count of whole
milliseconds decides whether the worker starts, and is the budget that it starts with; a worker that
does not start takes no request and gives no answer. -/
structure Launched (command : Command) : Prop where
  accepted (env : Environment) : (∃ budget, Worker.boot (command.environment env) = .ok budget) ↔
    Setting.Fits command.bootstrap.span.millis
  recovered (env : Environment) (budget : BootstrapBudget) :
    Worker.boot (command.environment env) = .ok budget →
      budget.span = .ofMillis command.bootstrap.span.millis
  whole (env : Environment) (count : Nat) : command.bootstrap.span = .ofMillis count →
    Setting.Fits count → Worker.boot (command.environment env) = .ok command.bootstrap
  started (here : Surroundings Image) (process : Process) : command.spawn here = .ok process →
    here.program command.worker = .ok .worker → Setting.Fits command.bootstrap.span.millis →
      ∃ path library, process =
        { child := .worker {} {} path library (.ofMillis command.bootstrap.span.millis) }
  stopped (here : Surroundings Image) (input : ByteArray) :
    ¬ Setting.Fits command.bootstrap.span.millis →
      Worker.runOn { here with env := command.environment here.env } input =
        (some (.code 1 (some (.ofFailure (.config
          (Setting.misfit Setting.bootstrap command.bootstrap.span.millis))))), ByteArray.empty)
  silent (here : Surroundings Image) (process : Process) : command.spawn here = .ok process →
    here.program command.worker = .ok .worker → ¬ Setting.Fits command.bootstrap.span.millis →
      ∀ deeds, (∀ event ∈ (process.play deeds).1, ∃ reason, event = .crashed reason) ∧
        (.round ∈ deeds → .crashed "worker exited" ∈ (process.play deeds).1)

theorem budget_survives_launch (command : Command) : Launched command := by
  have boots := command.boot_environment
  constructor
  case accepted =>
    intro env
    rw [boots]
    split
    · rename_i fits
      exact ⟨fun _ => fits, fun _ => ⟨_, rfl⟩⟩
    · rename_i misfit
      exact ⟨nofun, fun fits => absurd fits misfit⟩
  case recovered =>
    intro env budget booted
    rw [boots] at booted
    split at booted
    · cases booted
      rfl
    · cases booted
  case whole =>
    intro env count exact fits
    have same : command.bootstrap.span.millis = count := by rw [exact, Duration.millis_ofMillis]
    rw [boots, same, if_pos fits, ← exact]
  case started =>
    intro here process spawned found fits
    rw [command.spawn_worker found, Command.start, boots, if_pos fits] at spawned
    cases spawned
    exact ⟨_, _, rfl⟩
  case stopped =>
    intro here input misfit
    rw [Worker.runOn, boots, if_neg misfit]
  case silent =>
    intro here process spawned found misfit deeds
    rw [command.spawn_worker found, Command.start, boots, if_neg misfit] at spawned
    cases spawned
    exact ⟨Process.play_ended rfl deeds, Process.exited_mem_play rfl rfl⟩

def yard (env : Environment) : Surroundings Image := ⟨⟨[(["w"], .image .worker)]⟩, [], "/", env⟩

def launch (nanos : Nat) : Command := { worker := "/w", bootstrap := ⟨⟨nanos⟩⟩ }

theorem program_yard (env : Environment) (nanos : Nat) :
    (yard env).program (launch nanos).worker = .ok .worker := by
  change (yard env).program "/w" = .ok .worker
  cbv

def clutter : Environment := Environment.empty.setText Setting.bootstrap "soon"

theorem budget_survives_launch_edge :
    (∃ path library, (launch (2 ^ 64 * 1000000 - 1)).spawn (yard clutter) =
      .ok { child := .worker {} {} path library (.ofMillis (2 ^ 64 - 1)) }) ∧
    ∃ process, (launch (2 ^ 64 * 1000000)).spawn (yard clutter) = .ok process ∧
      ∀ deeds, .round ∈ deeds → .crashed "worker exited" ∈ (process.play deeds).1 := by
  have found := program_yard clutter
  have spawned := fun nanos => (launch nanos).spawn_worker (found nanos)
  have count : ∀ nanos, (launch nanos).bootstrap.span.millis = nanos / 1000000 := fun _ => rfl
  constructor
  · have fits : Setting.Fits (launch (2 ^ 64 * 1000000 - 1)).bootstrap.span.millis := by
      rw [count]
      decide
    have launched := budget_survives_launch (launch (2 ^ 64 * 1000000 - 1))
    obtain ⟨path, library, started⟩ := launched.started (yard clutter) _ (spawned _) (found _) fits
    rw [spawned, started, count]
    exact ⟨path, library, rfl⟩
  · have misfit : ¬ Setting.Fits (launch (2 ^ 64 * 1000000)).bootstrap.span.millis := by
      rw [count]
      decide
    have launched := budget_survives_launch (launch (2 ^ 64 * 1000000))
    refine ⟨_, spawned _, ?_⟩
    intro deeds
    exact (launched.silent (yard clutter) _ (spawned _) (found _) misfit deeds).2

end Context

end Sandbox

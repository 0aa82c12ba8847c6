import Sandbox.CommandLine.Basic
import Sandbox.Proofs.Client.Log
import Sandbox.Proofs.Frame.Canonical
import Sandbox.Proofs.Text.Spelling

namespace Sandbox

namespace Environment

/-- The variable holds this text. No text is held by a value that is not UTF-8. -/
def Holds (env : Environment) (name text : String) : Prop := env.value? name = some text.toUTF8

theorem text?_eq_some_iff {env : Environment} {name text : String} :
    env.text? name = some text ↔ env.Holds name text := by
  rw [text?, Option.bind_eq_some_iff]
  constructor
  · rintro ⟨bytes, set, read⟩
    rw [Holds, set, Frame.toUTF8_of_fromUTF8? read]
  · intro holds
    exact ⟨_, holds, Frame.fromUTF8?_toUTF8 text⟩

theorem text?_eq_none_iff {env : Environment} {name : String} :
    env.text? name = none ↔ ∀ text, ¬env.Holds name text := by
  simp only [← text?_eq_some_iff, Option.eq_none_iff_forall_ne_some, ne_eq]

end Environment

namespace Setting

open Text (Spells)

inductive Fault (env : Environment) (name : String) : Failure → Prop
  | zero {value : String} (holds : env.Holds name value) (spells : Spells value.toList 0) :
    Fault env name (.config (.zero name))
  | other {value : String} (holds : env.Holds name value)
    (unread : ¬∃ n, Spells value.toList n ∧ n ≤ 2 ^ 64 - 1) :
    Fault env name (.config (.notMillis name value))

def Sound (env : Environment) (name : String) : Prop :=
  ∀ value, env.Holds name value → ∃ n, Spells value.toList n ∧ Fits n

inductive Names (env : Environment) (name : String) (default : Duration) : Duration → Prop
  | unset (absent : ∀ value, ¬env.Holds name value) : Names env name default default
  | count {value : String} {n : Nat} (holds : env.Holds name value)
    (spells : Spells value.toList n) (fits : Fits n) : Names env name default (.ofMillis n)

variable {env : Environment} {name : String}

theorem Fault.millis {failure : Failure} (fault : Fault env name failure) (default : Duration) :
    millis env name default = .error failure := by
  cases fault with
  | zero holds spells =>
    rw [Setting.millis, Environment.text?_eq_some_iff.mpr holds]
    exact parseMillis_of_spells_zero spells
  | other holds unread =>
    rw [Setting.millis, Environment.text?_eq_some_iff.mpr holds]
    exact parseMillis_of_unread unread

theorem Sound.millis (sound : Sound env name) (default : Duration) :
    ∃ span, millis env name default = .ok span ∧ Names env name default span := by
  cases text : env.text? name with
  | none =>
    refine ⟨default, ?_, .unset (Environment.text?_eq_none_iff.mp text)⟩
    rw [Setting.millis, text]
  | some value =>
    have holds := Environment.text?_eq_some_iff.mp text
    obtain ⟨n, spells, fits⟩ := sound value holds
    refine ⟨.ofMillis n, ?_, .count holds spells fits⟩
    rw [Setting.millis, text]
    exact parseMillis_of_spells spells fits

theorem sound_or_fault (env : Environment) (name : String) :
    Sound env name ∨ ∃ failure, Fault env name failure := by
  cases text : env.text? name with
  | none =>
    exact .inl fun value holds => absurd holds (Environment.text?_eq_none_iff.mp text value)
  | some value =>
    have holds := Environment.text?_eq_some_iff.mp text
    rcases parseMillis_outcomes name value with ⟨n, spells, fits, -⟩ | ⟨spells, -⟩ | ⟨unread, -⟩
    · refine .inl fun value' holds' => ?_
      obtain rfl : value = value' :=
        Option.some.inj (text.symm.trans (Environment.text?_eq_some_iff.mpr holds'))
      exact ⟨n, spells, fits⟩
    · exact .inr ⟨_, .zero holds spells⟩
    · exact .inr ⟨_, .other holds unread⟩

end Setting

namespace CommandLine

open Client (Ask Effect Play)
open Context (Fleet)
open Setting (Fault Sound Names)

/-! ## Settings -/

section
variable (here : Surroundings Image) (options : ContextOptions)

structure Configurable : Prop where
  execution : Sound here.env Setting.execution
  readiness : Sound here.env Setting.readiness
  worker : options.worker = none → ∃ path, here.worker = .ok path
  bootstrap : Sound here.env Setting.bootstrap

/-- What fails before all else: the checks in the order in which they are made. -/
inductive FirstFault : Failure → Prop
  | execution {failure : Failure} (fault : Fault here.env Setting.execution failure) :
    FirstFault failure
  | readiness {failure : Failure} (execution : Sound here.env Setting.execution)
    (fault : Fault here.env Setting.readiness failure) : FirstFault failure
  | worker {failure : Failure} (execution : Sound here.env Setting.execution)
    (readiness : Sound here.env Setting.readiness) (omitted : options.worker = none)
    (missing : here.worker = .error failure) : FirstFault failure
  | bootstrap {failure : Failure} (execution : Sound here.env Setting.execution)
    (readiness : Sound here.env Setting.readiness)
    (worker : options.worker = none → ∃ path, here.worker = .ok path)
    (fault : Fault here.env Setting.bootstrap failure) : FirstFault failure

def Chosen (given : Option Nat) (env : Environment) (name : String) (default span : Duration) :
    Prop :=
  match given with
  | some count => span = .ofMillis count
  | none => Names env name default span

inductive Located : String → Prop
  | given {path : String} (given : options.worker = some path) : Located path
  | found {path : String} (omitted : options.worker = none) (found : here.worker = .ok path) :
    Located path

structure Resolved (execution : Option Nat) (c : Configuration) : Prop where
  execution : Chosen execution here.env Setting.execution (.ofMillis 2000) c.budgets.execution
  readiness :
    Chosen options.readiness here.env Setting.readiness (.ofMillis 6000) c.budgets.readiness
  worker : Located here options c.command.worker
  engine : c.command.engine = options.engine
  bootstrap : Names here.env Setting.bootstrap (.ofMillis 4000) c.command.bootstrap.span
  handed : Worker.boot (c.command.environment here.env) = .ok c.command.bootstrap

end

section
variable {here : Surroundings Image} {options : ContextOptions} {execution : Option Nat}

theorem budgets_of_sound {env : Environment} (execution : Sound env Setting.execution)
    (readiness : Sound env Setting.readiness) : ∃ budgets, Budgets.ofEnvironment env = .ok budgets ∧
      Names env Setting.execution (.ofMillis 2000) budgets.execution ∧
      Names env Setting.readiness (.ofMillis 6000) budgets.readiness := by
  obtain ⟨execution, read, named⟩ := execution.millis (.ofMillis 2000)
  obtain ⟨readiness, read', named'⟩ := readiness.millis (.ofMillis 6000)
  refine ⟨⟨execution, readiness⟩, ?_, named, named'⟩
  rw [Budgets.ofEnvironment, read, read']
  rfl

theorem FirstFault.configure {failure : Failure} (fault : FirstFault here options failure)
    (execution : Option Nat) : configure here options execution = .error failure := by
  cases fault with
  | execution fault =>
    have failed : Budgets.ofEnvironment here.env = .error failure := by
      rw [Budgets.ofEnvironment, fault.millis]
      rfl
    rw [CommandLine.configure, failed]
    rfl
  | readiness executes fault =>
    obtain ⟨span, read, -⟩ := executes.millis (.ofMillis 2000)
    have failed : Budgets.ofEnvironment here.env = .error failure := by
      rw [Budgets.ofEnvironment, read, fault.millis]
      rfl
    rw [CommandLine.configure, failed]
    rfl
  | worker executes readies omitted missing =>
    obtain ⟨budgets, read, -⟩ := budgets_of_sound executes readies
    rw [CommandLine.configure, read, omitted, missing]
    rfl
  | bootstrap executes readies worker fault =>
    obtain ⟨budgets, read, -⟩ := budgets_of_sound executes readies
    have failed : BootstrapBudget.ofEnvironment here.env = .error failure := by
      rw [BootstrapBudget.ofEnvironment, fault.millis]
      rfl
    rw [CommandLine.configure, read, failed]
    cases given : options.worker with
    | some path => rfl
    | none =>
      obtain ⟨path, found⟩ := worker given
      rw [found]
      rfl

theorem Chosen.of_names {env : Environment} {name : String} {default span : Duration}
    (named : Names env name default span) (given : Option Nat) :
    Chosen given env name default ((given.map Duration.ofMillis).getD span) := by
  cases given with
  | none => exact named
  | some count => rfl

theorem fits_of_names {env : Environment} {span : Duration}
    (named : Names env Setting.bootstrap (.ofMillis 4000) span) :
    Setting.Fits span.millis ∧ span = .ofMillis span.millis := by
  cases named with
  | unset absent => exact ⟨by decide, rfl⟩
  | count holds spells fits => simpa using fits

theorem Configurable.located (sound : Configurable here options) :
    ∃ path, Located here options path := by
  cases given : options.worker with
  | some path => exact ⟨path, .given given⟩
  | none =>
    obtain ⟨path, found⟩ := sound.worker given
    exact ⟨path, .found given found⟩

theorem Located.configure {path : String} (located : Located here options path) {budgets : Budgets}
    (read : Budgets.ofEnvironment here.env = .ok budgets) {bootstrap : BootstrapBudget}
    (read' : BootstrapBudget.ofEnvironment here.env = .ok bootstrap) (execution : Option Nat) :
    configure here options execution = .ok {
      budgets := {
        execution := (execution.map Duration.ofMillis).getD budgets.execution
        readiness := (options.readiness.map Duration.ofMillis).getD budgets.readiness }
      command := { worker := path, engine := options.engine, bootstrap } } := by
  rw [CommandLine.configure, read, read']
  cases located with
  | given given =>
    rw [given]
    rfl
  | found omitted found =>
    rw [omitted, found]
    rfl

theorem Configurable.configure (sound : Configurable here options) (execution : Option Nat) :
    ∃ c, configure here options execution = .ok c ∧ Resolved here options execution c := by
  obtain ⟨budgets, read, executes, readies⟩ := budgets_of_sound sound.execution sound.readiness
  obtain ⟨span, read', bootstraps⟩ := sound.bootstrap.millis (.ofMillis 4000)
  have read'' : BootstrapBudget.ofEnvironment here.env = .ok ⟨span⟩ := by
    rw [BootstrapBudget.ofEnvironment, read']
    rfl
  obtain ⟨path, located⟩ := sound.located
  refine ⟨_, located.configure read read'' execution, ?_⟩
  constructor
  case execution => exact .of_names executes execution
  case readiness => exact .of_names readies options.readiness
  case worker => exact located
  case engine => rfl
  case bootstrap => exact bootstraps
  case handed =>
    obtain ⟨fits, whole⟩ := fits_of_names bootstraps
    rw [Context.Command.boot_environment, if_pos fits, ← whole]

theorem configurable_or_fault (here : Surroundings Image) (options : ContextOptions) :
    Configurable here options ∨ ∃ failure, FirstFault here options failure := by
  rcases Setting.sound_or_fault here.env Setting.execution with execution | ⟨failure, fault⟩
  case inr => exact .inr ⟨failure, .execution fault⟩
  rcases Setting.sound_or_fault here.env Setting.readiness with readiness | ⟨failure, fault⟩
  case inr => exact .inr ⟨failure, .readiness execution fault⟩
  by_cases worker : options.worker = none → ∃ path, here.worker = .ok path
  · rcases Setting.sound_or_fault here.env Setting.bootstrap with bootstrap | ⟨failure, fault⟩
    · exact .inl ⟨execution, readiness, worker, bootstrap⟩
    · exact .inr ⟨failure, .bootstrap execution readiness worker fault⟩
  · rw [Classical.not_imp] at worker
    obtain ⟨omitted, unfound⟩ := worker
    cases missing : here.worker with
    | ok path => exact absurd ⟨path, missing⟩ unfound
    | error failure => exact .inr ⟨failure, .worker execution readiness omitted missing⟩

end

/-! ## Commands -/

inductive Unreadable (host : Host) (file : String) : Report → Prop
  | input (hyphen : file = "-") (binary : ∀ code : String, host.input ≠ code.toUTF8) :
    Unreadable host file
      ⟨"Failed to read snippet from stdin", some "stream did not contain valid UTF-8"⟩
  | absent {cause : OsError} (named : file ≠ "-")
    (failed : host.here.files.read host.here.directory file = .error cause) :
    Unreadable host file ⟨"Failed to read snippet " ++ file, some cause.message⟩
  | file {bytes : ByteArray} (named : file ≠ "-")
    (read : host.here.files.read host.here.directory file = .ok bytes)
    (binary : ∀ code : String, bytes ≠ code.toUTF8) :
    Unreadable host file
      ⟨"Failed to read snippet " ++ file, some "stream did not contain valid UTF-8"⟩

theorem fromUTF8?_eq_none_iff {bytes : ByteArray} :
    String.fromUTF8? bytes = none ↔ ∀ text : String, bytes ≠ text.toUTF8 := by
  constructor
  · rintro none text rfl
    exact nomatch none.symm.trans (Frame.fromUTF8?_toUTF8 text)
  · intro binary
    cases read : String.fromUTF8? bytes with
    | none => rfl
    | some text => exact absurd (Frame.toUTF8_of_fromUTF8? read).symm (binary text)

theorem readSnippet_eq_error_iff {host : Host} {file : String} {report : Report} :
    readSnippet host file = .error report ↔ Unreadable host file report := by
  constructor
  · intro failed
    by_cases hyphen : file = "-"
    · rw [readSnippet, if_pos hyphen] at failed
      cases read : String.fromUTF8? host.input with
      | some code => simp only [read, reduceCtorEq] at failed
      | none =>
        simp only [read] at failed
        cases failed
        exact .input hyphen (fromUTF8?_eq_none_iff.mp read)
    · rw [readSnippet, if_neg hyphen] at failed
      cases found : host.here.files.read host.here.directory file with
      | error cause =>
        simp only [found] at failed
        cases failed
        exact .absent hyphen found
      | ok bytes =>
        cases read : String.fromUTF8? bytes with
        | some code => simp only [found, read, reduceCtorEq] at failed
        | none =>
          simp only [found, read] at failed
          cases failed
          exact .file hyphen found (fromUTF8?_eq_none_iff.mp read)
  · intro unreadable
    cases unreadable with
    | input hyphen binary =>
      rw [readSnippet, if_pos hyphen]
      simp only [fromUTF8?_eq_none_iff.mpr binary]
      rfl
    | absent named failed =>
      rw [readSnippet, if_neg named]
      simp only [failed]
    | file named read binary =>
      rw [readSnippet, if_neg named]
      simp only [read, fromUTF8?_eq_none_iff.mpr binary]

inductive Refused (host : Host) : Command → Report → Prop
  | snippet {file : String} {execution : Option Nat} {json : Bool} {options : ContextOptions}
    {report : Report} (unreadable : Unreadable host file report) :
    Refused host (.run file execution json options) report
  | run {file : String} {execution : Option Nat} {json : Bool} {options : ContextOptions}
    {failure : Failure} (readable : ∀ report, ¬Unreadable host file report)
    (fault : FirstFault host.here options failure) :
    Refused host (.run file execution json options) (.withHint failure)
  | check {options : ContextOptions} {failure : Failure}
    (fault : FirstFault host.here options failure) :
    Refused host (.check options) (.withHint failure)

theorem configure_eq_error_iff {here : Surroundings Image} {options : ContextOptions}
    {execution : Option Nat} {failure : Failure} :
    configure here options execution = .error failure ↔ FirstFault here options failure := by
  constructor
  · intro failed
    rcases configurable_or_fault here options with sound | ⟨other, fault⟩
    · obtain ⟨c, configured, -⟩ := sound.configure execution
      cases configured.symm.trans failed
    · cases (fault.configure execution).symm.trans failed
      exact fault
  · exact fun fault => fault.configure execution

theorem configured_eq_error_iff {here : Surroundings Image} {options : ContextOptions}
    {execution : Option Nat} {report : Report} (job : Configuration → Job) :
    ((configure here options execution).mapError Report.withHint).map job = .error report ↔
      ∃ failure, FirstFault here options failure ∧ Report.withHint failure = report := by
  cases configured : configure here options execution with
  | ok c =>
    constructor
    · exact nofun
    · rintro ⟨failure, fault, -⟩
      cases configured.symm.trans (fault.configure execution)
  | error failure =>
    constructor
    · rintro ⟨⟩
      exact ⟨failure, configure_eq_error_iff.mp configured, rfl⟩
    · rintro ⟨other, fault, rfl⟩
      cases configured.symm.trans (fault.configure execution)
      rfl

theorem prepare_run {host : Host} {file code : String} (read : readSnippet host file = .ok code)
    (execution : Option Nat) (json : Bool) (options : ContextOptions) :
    (Command.run file execution json options).prepare host =
      ((configure host.here options execution).mapError Report.withHint).map
        (⟨·, .run code json⟩) := by
  rw [Command.prepare, read]
  cases configure host.here options execution <;> rfl

theorem prepare_check (host : Host) (options : ContextOptions) :
    (Command.check options).prepare host =
      ((configure host.here options none).mapError Report.withHint).map (⟨·, .check⟩) := by
  rw [Command.prepare]
  cases configure host.here options none <;> rfl

theorem prepare_eq_error_iff {host : Host} {command : Command} {report : Report} :
    command.prepare host = .error report ↔ Refused host command report := by
  cases command with
  | run file execution json options =>
    cases read : readSnippet host file with
    | error report' =>
      have unreadable := readSnippet_eq_error_iff.mp read
      have refused : (Command.run file execution json options).prepare host = .error report' := by
        rw [Command.prepare, read]
        rfl
      constructor
      · intro failed
        cases refused.symm.trans failed
        exact .snippet unreadable
      · intro why
        cases why with
        | snippet other =>
          cases read.symm.trans (readSnippet_eq_error_iff.mpr other)
          exact refused
        | run readable fault => exact absurd unreadable (readable report')
    | ok code =>
      have readable : ∀ report, ¬Unreadable host file report := fun report unreadable =>
        nomatch read.symm.trans (readSnippet_eq_error_iff.mpr unreadable)
      rw [prepare_run read, configured_eq_error_iff]
      constructor
      · rintro ⟨failure, fault, rfl⟩
        exact .run readable fault
      · intro why
        cases why with
        | snippet unreadable => exact absurd unreadable (readable report)
        | run _ fault => exact ⟨_, fault, rfl⟩
  | check options =>
    rw [prepare_check, configured_eq_error_iff]
    constructor
    · rintro ⟨failure, fault, rfl⟩
      exact .check fault
    · intro why
      cases why with
      | check fault => exact ⟨_, fault, rfl⟩

/-! ## Contexts -/

def launch (here : Surroundings Image) (configuration : Configuration) : Play Fleet where
  world := Fleet.world
  settings := ⟨configuration.budgets, CorrelationId.generate⟩
  scene := { maker := .processes configuration.command here }

def answer {σ : Type} (play : Play σ) : Except Failure (Option RunOutput) × Duration :=
  match play.client.phase? 0 with
  | some (.finished outcome) => (outcome, play.client.now)
  | _ => (.error .resetInterrupted, play.client.now)

theorem answer_recorded {σ : Type} (play : Play σ) (log : List Effect) :
    answer (play.recorded log) = answer play := rfl

theorem call_eq (here : Surroundings Image) (configuration : Configuration) (ask : Ask) :
    call here configuration ask =
      answer (((launch here configuration).act (.begin ask)).finish [0]) := by
  dsimp only [call, launch]
  generalize Play.finish _ [0] = play
  rfl

namespace Job

def ask (job : Job) : Ask :=
  match job.task with
  | .run code _ => .run code none
  | .check => .ready job.configuration.budgets.readiness

def outcome (job : Job) (result : Except Failure (Option RunOutput) × Duration) : Outcome :=
  match job.task, result with
  | .run _ json, (.ok output, _) => .ran json (output.getD ⟨"", ""⟩)
  | .check, (.ok _, elapsed) => .ready elapsed
  | _, (.error cause, _) => .failed (.withHint cause)

theorem perform_eq (here : Surroundings Image) (job : Job) :
    job.perform here = job.outcome (call here job.configuration job.ask) := by
  obtain ⟨configuration, task⟩ := job
  cases task with
  | run code json =>
    simp only [perform, ask]
    generalize call here configuration _ = result
    rcases result with ⟨cause | output, elapsed⟩ <;> rfl
  | check =>
    simp only [perform, ask]
    generalize call here configuration _ = result
    rcases result with ⟨cause | output, elapsed⟩ <;> rfl

def logged (here : Surroundings Image) (job : Job) : Play (Fleet × List Effect) :=
  (((launch here job.configuration).recorded []).act (.begin job.ask)).finish [0]

theorem logged_tells (here : Surroundings Image) (job : Job) :
    answer (job.logged here) = call here job.configuration job.ask ∧
      ∃ result, .created 1 result ∈ (job.logged here).scene.2 := by
  obtain ⟨log, finished, created⟩ :=
    (launch here job.configuration).creates rfl rfl job.ask [0]
  rw [logged, finished, call_eq, answer_recorded]
  exact ⟨rfl, created⟩

end Job

def performed (host : Host) (arguments : List String) : Outcome × List Effect :=
  match Invocation.ofArguments arguments with
  | .command command => match command.prepare host with
    | .ok job => (job.outcome (answer (job.logged host.here)), (job.logged host.here).scene.2)
    | .error report => (.failed report, [])
  | .version => (.version, [])
  | .help topic => (.help topic, [])
  | .misuse => (.misuse, [])

theorem performed_outcome (host : Host) (arguments : List String) :
    (performed host arguments).1 = perform host arguments := by
  cases parsed : Invocation.ofArguments arguments with
  | command command =>
    cases prepared : command.prepare host with
    | ok job =>
      simp only [performed, perform, parsed, prepared]
      rw [Job.perform_eq, (job.logged_tells host.here).1]
    | error report => simp only [performed, perform, parsed, prepared]
  | _ => simp only [performed, perform, parsed]

/-- Settings are resolved by one rule, and a command whose settings or snippet cannot be read does
nothing but report the first fault. -/
structure Configured (host : Host) : Prop where
  succeeds : ∀ options execution, (∃ c, configure host.here options execution = .ok c) ↔
    Configurable host.here options
  resolved : ∀ options execution c, configure host.here options execution = .ok c →
    Resolved host.here options execution c
  fails : ∀ options execution failure, configure host.here options execution = .error failure ↔
    FirstFault host.here options failure
  refused : ∀ (command : Command) report, command.prepare host = .error report ↔
    Refused host command report
  stopped : ∀ arguments command report, Invocation.ofArguments arguments = .command command →
    Refused host command report → performed host arguments = (.failed report, []) ∧
      ∀ showTime, (perform host arguments).print showTime = ⟨1, "", report.render⟩
  started : ∀ arguments command, Invocation.ofArguments arguments = .command command →
    (∀ report, ¬Refused host command report) →
      ∃ result, .created 1 result ∈ (performed host arguments).2
  logged : ∀ arguments, (performed host arguments).1 = perform host arguments

theorem configuration_precedes_contexts (host : Host) : Configured host := by
  constructor
  case succeeds =>
    intro options execution
    constructor
    · rintro ⟨c, configured⟩
      rcases configurable_or_fault host.here options with sound | ⟨failure, fault⟩
      · exact sound
      · cases configured.symm.trans (fault.configure execution)
    · intro sound
      obtain ⟨c, configured, -⟩ := sound.configure execution
      exact ⟨c, configured⟩
  case resolved =>
    intro options execution c configured
    rcases configurable_or_fault host.here options with sound | ⟨failure, fault⟩
    · obtain ⟨c', configured', resolved⟩ := sound.configure execution
      cases configured.symm.trans configured'
      exact resolved
    · cases configured.symm.trans (fault.configure execution)
  case fails => exact fun options execution failure => configure_eq_error_iff
  case refused => exact fun command report => prepare_eq_error_iff
  case stopped =>
    intro arguments command report parsed why
    have refused := prepare_eq_error_iff.mpr why
    have performed : performed host arguments = (.failed report, []) := by
      simp only [CommandLine.performed, parsed, refused]
    refine ⟨performed, fun showTime => ?_⟩
    rw [← performed_outcome, performed]
    rfl
  case started =>
    intro arguments command parsed sound
    cases prepared : command.prepare host with
    | error report => exact absurd (prepare_eq_error_iff.mp prepared) (sound report)
    | ok job =>
      have performed : (performed host arguments).2 = (job.logged host.here).scene.2 := by
        simp only [CommandLine.performed, parsed, prepared]
      rw [performed]
      exact (job.logged_tells host.here).2
  case logged => exact performed_outcome host

end CommandLine

end Sandbox

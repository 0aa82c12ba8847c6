import Sandbox.Proofs.Runner.Turn

namespace Sandbox.Runner

open Engine

namespace Attempt

def slot (a : Attempt) : Nat := a.launch.slot

def deadline (budget : Duration) (a : Attempt) : Duration := a.launch.now + budget

def mail (a : Attempt) : List Mail :=
  a.launch.start.mail.toList ++ (a.letters.filter Letter.awaited).map Letter.mail

inductive Settles (budget now : Duration) (a : Attempt) : Except String Nat → Prop
  | refused {message : String} (refused : a.launch.start.result = .error message) :
    Settles budget now a (.error message)
  | received {mail : Mail} (started : a.launch.start.result = .ok ()) (first : a.mail.head? = some mail) :
    Settles budget now a (mailOutcome mail)
  | expired (started : a.launch.start.result = .ok ()) (empty : a.mail = [])
    (due : a.deadline budget ≤ now) : Settles budget now a (.error (timeoutMessage budget))

structure Runs (budget : Duration) (a : Attempt) (b : Bootstrap) : Prop where
  caller : a.caller = b.caller
  slot : a.slot = b.slot
  deadline : a.deadline budget = b.deadline
  mail : a.mail.head? = b.mail
  started : a.launch.start.result = .ok ()
  ongoing : a.ongoing = true

structure Sound (budget now : Duration) (a : Attempt) : Prop where
  past : ∀ letter ∈ a.letters, letter.now ≤ now
  heard : ∀ letter ∈ a.letters, letter.heard = true → letter.awaited = true
  first : a.launch.start.mail = none → ∀ letter, a.letters.head? = some letter →
    letter.heard = letter.awaited
  awaited : a.ongoing = true → ∀ letter ∈ a.letters, letter.awaited = true
  settled : ∀ t outcome, a.ending = some (.settled t outcome) → a.Settles budget t outcome ∧
    t ≤ now ∧ ∀ letter ∈ a.letters, letter.awaited = false → t ≤ letter.now

variable {budget now : Duration} {a : Attempt} {b : Bootstrap}

theorem not_ongoing_of_abandoned (abandoned : a.abandoned = true) : a.ongoing = false := by
  rw [Attempt.abandoned] at abandoned
  rw [ongoing]
  split at abandoned
  · rename_i ended
    rw [ended]
    rfl
  · cases abandoned

theorem Runs.settles (runs : a.Runs budget b) {outcome : Except String Nat}
    (verdict : b.verdict? budget now = some outcome) : a.Settles budget now outcome := by
  rw [Bootstrap.verdict?, ← runs.mail, ← runs.deadline] at verdict
  cases first : a.mail.head? with
  | some mail =>
    rw [first] at verdict
    cases verdict
    exact .received runs.started first
  | none =>
    rw [first] at verdict
    dsimp only at verdict
    split at verdict
    · cases verdict
      exact .expired runs.started (List.head?_eq_none_iff.mp first) ‹_›
    · cases verdict

@[simp] theorem finish_launch (caller : Nat) (ending : Ending) (a : Attempt) :
    (a.finish caller ending).launch = a.launch := by
  rw [finish]
  split <;> rfl

theorem finish_closed (caller : Nat) (ending : Ending) (closed : a.ongoing = false) :
    a.finish caller ending = a := by
  rw [finish, if_neg (by simp [closed])]

theorem finish_other {caller : Nat} (ending : Ending) (other : a.caller ≠ caller) :
    a.finish caller ending = a := by
  rw [finish, if_neg (by simp [other])]

theorem finish_own (ending : Ending) (going : a.ongoing = true) :
    a.finish a.caller ending = { a with ending := some ending } := by
  rw [finish, if_pos ⟨rfl, going⟩]

@[simp] theorem take_caller (slot : Nat) (now : Duration) (mail : Mail) (heard : Bool) (a : Attempt) :
    (a.take slot now mail heard).caller = a.caller := by
  rw [take]
  split <;> rfl

@[simp] theorem take_launch (slot : Nat) (now : Duration) (mail : Mail) (heard : Bool) (a : Attempt) :
    (a.take slot now mail heard).launch = a.launch := by
  rw [take]
  split <;> rfl

@[simp] theorem take_ending (slot : Nat) (now : Duration) (mail : Mail) (heard : Bool) (a : Attempt) :
    (a.take slot now mail heard).ending = a.ending := by
  rw [take]
  split <;> rfl

@[simp] theorem take_abandoned (slot : Nat) (now : Duration) (mail : Mail) (heard : Bool)
    (a : Attempt) : (a.take slot now mail heard).abandoned = a.abandoned := by
  rw [abandoned, take_ending, ← abandoned]

theorem Runs.take (runs : a.Runs budget b) {slot : Nat} (own : a.slot = slot) (now : Duration)
    (mail : Mail) (heard : Bool) :
    (a.take slot now mail heard).Runs budget { b with mail := b.mail.or (some mail) } := by
  have own : a.launch.slot = slot := own
  rw [Attempt.take, if_pos own]
  refine ⟨runs.caller, runs.slot, runs.deadline, ?_, runs.started, runs.ongoing⟩
  have letters : Attempt.mail { a with letters := a.letters ++ [⟨now, mail, heard, a.ongoing⟩] } =
      a.mail ++ [mail] := by
    simp [Attempt.mail, runs.ongoing]
  rw [letters, List.head?_append, runs.mail]
  rfl

theorem Sound.begin {caller : Nat} {launch : Launch} :
    Sound budget now (.begin caller launch) :=
  ⟨nofun, nofun, fun _ => nofun, fun _ => nofun, nofun⟩

theorem Sound.later (sound : a.Sound budget now) (span : Duration) :
    a.Sound budget (now + span) := by
  have later : ∀ t : Duration, t ≤ now → t ≤ now + span :=
    fun t past => Nat.le_trans past (Nat.le_add_right _ _)
  refine ⟨fun letter member => later _ (sound.past letter member), sound.heard, sound.first,
    sound.awaited, fun t outcome ended => ?_⟩
  obtain ⟨settles, past, after⟩ := sound.settled t outcome ended
  exact ⟨settles, later _ past, after⟩

theorem Settles.ended {outcome : Except String Nat} {t : Duration}
    (settles : a.Settles budget t outcome) (ending : Option Ending) :
    Settles budget t { a with ending } outcome := by
  cases settles with
  | refused refused => exact .refused refused
  | received started first => exact .received started first
  | expired started empty due => exact .expired started empty due

theorem Sound.settle (sound : a.Sound budget now) (going : a.ongoing = true)
    {outcome : Except String Nat} (settles : a.Settles budget now outcome) :
    Sound budget now { a with ending := some (.settled now outcome) } := by
  refine ⟨sound.past, sound.heard, sound.first, nofun, ?_⟩
  rintro t outcome ⟨⟩
  refine ⟨settles.ended _, Nat.le_refl _, fun letter member unawaited => ?_⟩
  exact absurd (sound.awaited going letter member) (by simp [unawaited])

theorem Sound.abandon (sound : a.Sound budget now) (caller : Nat) :
    (a.finish caller .abandoned).Sound budget now := by
  rw [finish]
  split
  · exact ⟨sound.past, sound.heard, sound.first, nofun, nofun⟩
  · exact sound

theorem Sound.take (sound : a.Sound budget now) {slot : Nat} (mail : Mail) {heard : Bool}
    (hears : a.slot = slot → (heard = true ↔ a.ongoing = true ∧ a.mail = [])) :
    (a.take slot now mail heard).Sound budget now := by
  rw [Attempt.take]
  split
  · rename_i own
    replace hears := hears own
    refine ⟨fun letter member => ?_, fun letter member => ?_, fun silent letter first => ?_,
      fun going letter member => ?_, fun t outcome ended => ?_⟩
    · rcases List.mem_append.mp member with old | new
      · exact sound.past letter old
      · obtain rfl := List.mem_singleton.mp new
        exact Nat.le_refl _
    · rcases List.mem_append.mp member with old | new
      · exact sound.heard letter old
      · obtain rfl := List.mem_singleton.mp new
        exact fun listened => (hears.mp listened).1
    · cases letters : a.letters with
      | cons head rest =>
        refine sound.first silent letter ?_
        rw [letters] at first ⊢
        exact first
      | nil =>
        rw [letters] at first
        cases first
        have empty : a.mail = [] := by
          have silent : a.launch.start.mail = none := silent
          simp [Attempt.mail, silent, letters]
        refine Bool.eq_iff_iff.mpr ⟨fun listened => (hears.mp listened).1, fun going => ?_⟩
        exact hears.mpr ⟨going, empty⟩
    · rcases List.mem_append.mp member with old | new
      · exact sound.awaited going letter old
      · obtain rfl := List.mem_singleton.mp new
        exact going
    · obtain ⟨settles, past, after⟩ := sound.settled t outcome ended
      have closed : a.ongoing = false := by
        rw [ongoing, show a.ending = _ from ended]
        rfl
      have same : Attempt.mail { a with letters := a.letters ++ [⟨now, mail, heard, a.ongoing⟩] } =
          a.mail := by
        simp [Attempt.mail, closed]
      refine ⟨?_, past, fun letter member unawaited => ?_⟩
      · cases settles with
        | refused refused => exact .refused refused
        | received started first => exact .received started (same ▸ first)
        | expired started empty due => exact .expired started (same ▸ empty) due
      · rcases List.mem_append.mp member with old | new
        · exact after letter old unawaited
        · obtain rfl := List.mem_singleton.mp new
          exact past
  · exact sound

end Attempt

/-! ## One after another -/

inductive Standing (budget : Duration) (s : State) : List Attempt → Prop
  | vacant {attempts : List Attempt} (given : ∀ a ∈ attempts, a.abandoned = true)
    (unsettled : s.outcome = none) (vacant : ∀ b, s.turn ≠ .taken b) : Standing budget s attempts
  | ongoing {earlier : List Attempt} {a : Attempt} {b : Bootstrap}
    (given : ∀ a ∈ earlier, a.abandoned = true) (unsettled : s.outcome = none)
    (taken : s.turn = .taken b) (runs : a.Runs budget b) : Standing budget s (earlier ++ [a])
  | settled {earlier : List Attempt} {a : Attempt} {t : Duration} {outcome : Except String Nat}
    (given : ∀ a ∈ earlier, a.abandoned = true) (ended : a.ending = some (.settled t outcome))
    (settled : s.outcome = some outcome) : Standing budget s (earlier ++ [a])

theorem deliver_vacant {s : State} (vacant : ∀ b, s.turn ≠ .taken b) (slot : Nat) (mail : Mail) :
    deliver s slot mail = (false, s) := by
  rw [deliver]
  split
  · exact absurd ‹_› (vacant _)
  · rfl

theorem deliver_taken {s : State} {b : Bootstrap} (taken : s.turn = .taken b) (slot : Nat)
    (mail : Mail) :
    deliver s slot mail = if b.slot = slot ∧ b.mail = none then
      (true, { s with turn := .taken { b with mail := some mail } }) else (false, s) := by
  rw [deliver, taken]

theorem Change.cancelled_stays {s s' : State} {log : List (Nat × Execution)}
    (change : Change s log s') {caller : Nat} {task : Task}
    (cancelled : s.calls[caller]? = some ⟨task, .cancelled⟩) :
    s'.calls[caller]? = some ⟨task, .cancelled⟩ := by
  have modified : ∀ {other : Nat} {task' : Task} {phase : Phase},
      s.calls[other]? = some ⟨task', .active⟩ →
      s'.calls = (s.calls.modify other fun call => { call with phase }) →
      s'.calls[caller]? = some ⟨task, .cancelled⟩ := by
    intro other task' phase active calls
    rw [calls, getElem?_modify_phase, if_neg, cancelled]
    rintro rfl
    cases active.symm.trans cancelled
  cases change with
  | kept calls outcome halted => rw [calls, cancelled]
  | started task' =>
    have within := (List.getElem?_eq_some_iff.mp cancelled).choose
    exact (List.getElem?_append_left within).trans cancelled
  | cancelled found calls outcome halted => exact modified found calls
  | polled polled =>
    cases polled with
    | waits calls outcome halted => rw [calls, cancelled]
    | concludes found running settled after calls conclusion => exact modified found calls

namespace Standing

variable {budget : Duration} {s s' : State} {attempts : List Attempt}

theorem congr (standing : Standing budget s attempts) (outcome : s'.outcome = s.outcome)
    (turn : s'.turn = s.turn) : Standing budget s' attempts := by
  cases standing with
  | vacant given unsettled vacant =>
    exact .vacant given (outcome.trans unsettled) (fun b => turn ▸ vacant b)
  | ongoing given unsettled taken runs =>
    exact .ongoing given (outcome.trans unsettled) (turn.trans taken) runs
  | settled given ended settled => exact .settled given ended (outcome.trans settled)

theorem of_taken (standing : Standing budget s attempts) (line : InLine s) {b : Bootstrap}
    (taken : s.turn = .taken b) : ∃ earlier a, attempts = earlier ++ [a] ∧
      (∀ a ∈ earlier, a.abandoned = true) ∧ s.outcome = none ∧ a.Runs budget b := by
  cases standing with
  | vacant given unsettled vacant => exact absurd taken (vacant b)
  | ongoing given unsettled taken' runs =>
    cases taken.symm.trans taken'
    exact ⟨_, _, rfl, given, unsettled, runs⟩
  | settled given ended settled =>
    cases taken.symm.trans (line.settled (by rw [settled]; nofun))

theorem of_untaken (standing : Standing budget s attempts) (unsettled : s.outcome = none)
    (vacant : ∀ b, s.turn ≠ .taken b) : ∀ a ∈ attempts, a.abandoned = true := by
  cases standing with
  | vacant given => exact given
  | ongoing given unsettled taken runs => exact absurd taken (vacant _)
  | settled given ended settled => exact nomatch unsettled.symm.trans settled

theorem of_ongoing (standing : Standing budget s attempts) {a : Attempt} (member : a ∈ attempts)
    (ongoing : a.ongoing = true) : ∃ b, s.turn = .taken b ∧ a.Runs budget b := by
  have closed : ∀ {earlier : List Attempt}, (∀ a ∈ earlier, a.abandoned = true) → a ∉ earlier := by
    intro earlier given early
    exact absurd ongoing (by simp [Attempt.not_ongoing_of_abandoned (given a early)])
  cases standing with
  | vacant given => exact absurd member (closed given)
  | ongoing given unsettled taken runs =>
    rcases List.mem_append.mp member with early | last
    · exact absurd early (closed given)
    · obtain rfl := List.mem_singleton.mp last
      exact ⟨_, taken, runs⟩
  | settled given ended settled =>
    rcases List.mem_append.mp member with early | last
    · exact absurd early (closed given)
    · obtain rfl := List.mem_singleton.mp last
      exact absurd ongoing (by simp [Attempt.ongoing, ended])

theorem deliver (standing : Standing budget s attempts) (line : InLine s) (slot : Nat) (mail : Mail) :
    Standing budget (Runner.deliver s slot mail).2
      (attempts.map (Attempt.take slot s.now mail (Runner.deliver s slot mail).1)) := by
  have given : ∀ {earlier : List Attempt}, (∀ a ∈ earlier, a.abandoned = true) → ∀ heard,
      ∀ a ∈ earlier.map (Attempt.take slot s.now mail heard), a.abandoned = true := by
    intro earlier given heard a member
    obtain ⟨before, early, rfl⟩ := List.mem_map.mp member
    rw [Attempt.take_abandoned]
    exact given before early
  cases standing with
  | vacant abandoned unsettled vacant =>
    rw [deliver_vacant vacant]
    exact .vacant (given abandoned _) unsettled vacant
  | settled abandoned ended settled =>
    have free := line.settled (by rw [settled]; nofun)
    rw [deliver_vacant (by rw [free]; nofun), List.map_append, List.map_singleton]
    exact .settled (given abandoned _) ((Attempt.take_ending ..).trans ended) settled
  | @ongoing earlier a b abandoned unsettled taken runs =>
    rw [deliver_taken taken, List.map_append, List.map_singleton]
    by_cases own : a.slot = slot
    · have took := runs.take own s.now mail
      by_cases empty : b.mail = none
      · rw [empty] at took
        rw [if_pos ⟨runs.slot.symm.trans own, empty⟩]
        exact .ongoing (given abandoned _) unsettled rfl (took _)
      · obtain ⟨first, same⟩ := Option.ne_none_iff_exists'.mp empty
        have unchanged : { b with mail := b.mail.or (some mail) } = b := by
          rw [same, Option.some_or, ← same]
        rw [unchanged] at took
        rw [if_neg fun both => empty both.2]
        exact .ongoing (given abandoned _) unsettled taken (took _)
    · have elsewhere : ¬ a.launch.slot = slot := own
      rw [if_neg fun both => own (runs.slot.trans both.1), Attempt.take, if_neg elsewhere]
      exact .ongoing (given abandoned _) unsettled taken runs

theorem finish_abandoned {earlier : List Attempt} (given : ∀ a ∈ earlier, a.abandoned = true)
    (caller : Nat) (ending : Ending) : earlier.map (Attempt.finish caller ending) = earlier := by
  refine List.map_congr_left (fun a early => ?_) |>.trans (List.map_id earlier)
  exact Attempt.finish_closed caller ending (Attempt.not_ongoing_of_abandoned (given a early))

theorem cancel (standing : Standing budget s attempts) (line : InLine s) (caller : Nat) :
    Standing budget (Runner.cancel s caller) (attempts.map (Attempt.finish caller .abandoned)) := by
  have kept : ∀ b, s.turn ≠ .taken b ∨ b.caller ≠ caller →
      (Runner.cancel s caller).turn = .taken b → s.turn = .taken b := by
    intro b other taken
    by_cases active : s.Active caller
    · obtain ⟨-, -, -, -, -, ⟨-, turn, -⟩ | ⟨-, -, free, -⟩ | ⟨-, next, -, granted⟩⟩ :=
        InLine.cancel_cases active
      · exact turn ▸ taken
      · cases taken.symm.trans free
      · cases taken.symm.trans granted
    · rwa [InLine.cancel_inactive active] at taken
  have outcome : (Runner.cancel s caller).outcome = s.outcome := by
    by_cases active : s.Active caller
    · exact (InLine.cancel_cases active).2.1
    · rw [InLine.cancel_inactive active]
  cases standing with
  | vacant given unsettled vacant =>
    rw [finish_abandoned given]
    exact .vacant given (outcome.trans unsettled) fun b taken =>
      vacant b (kept b (.inl (vacant b)) taken)
  | @settled earlier a t _ given ended settled =>
    have closed : a.ongoing = false := by simp [Attempt.ongoing, ended]
    rw [List.map_append, List.map_singleton, finish_abandoned given,
      Attempt.finish_closed caller _ closed]
    exact .settled given ended (outcome.trans settled)
  | @ongoing earlier a b given unsettled taken runs =>
    have active : s.Active b.caller := line.holder b.caller (by simp [holdsTurn, taken])
    rw [List.map_append, List.map_singleton, finish_abandoned given]
    by_cases own : a.caller = caller
    · subst own
      rw [Attempt.finish_own _ runs.ongoing]
      refine .vacant (fun other member => ?_) (outcome.trans unsettled) fun other taken' => ?_
      · rcases List.mem_append.mp member with early | last
        · exact given other early
        · obtain rfl := List.mem_singleton.mp last
          rfl
      · rw [← runs.caller] at active
        have holds : holdsTurn s a.caller = true := by simp [holdsTurn, taken, runs.caller]
        obtain ⟨-, -, -, -, -, ⟨bystander, -⟩ | ⟨-, -, free, -⟩ | ⟨-, next, -, granted⟩⟩ :=
          InLine.cancel_cases active
        · cases holds.symm.trans bystander
        · cases taken'.symm.trans free
        · cases taken'.symm.trans granted
    · rw [Attempt.finish_other _ own]
      refine .ongoing given (outcome.trans unsettled) ?_ runs
      by_cases going : s.Active caller
      · have bystander : holdsTurn s caller = false := by
          simpa [holdsTurn, taken, runs.caller] using own
        obtain ⟨-, -, -, -, -, ⟨-, turn, -⟩ | ⟨holds, -⟩ | ⟨holds, -⟩⟩ := InLine.cancel_cases going
        · exact turn.trans taken
        · cases holds.symm.trans bystander
        · cases holds.symm.trans bystander
      · rwa [InLine.cancel_inactive going]

end Standing

/-! ## Polls -/

theorem close_same (caller : Nat) (now : Duration) (outcome : Option (Except String Nat))
    (attempts : List Attempt) : close caller now outcome outcome attempts = attempts := by
  cases outcome <;> rfl

theorem close_last {earlier : List Attempt} (given : ∀ a ∈ earlier, a.abandoned = true)
    {a : Attempt} (going : a.ongoing = true) (now : Duration) (outcome : Except String Nat) :
    close a.caller now none (some outcome) (earlier ++ [a]) =
      earlier ++ [{ a with ending := some (.settled now outcome) }] := by
  rw [close, List.map_append, List.map_singleton, Standing.finish_abandoned given,
    Attempt.finish_own _ going]

section
variable {budget : Duration} {s s' : State}

def Stands (budget now : Duration) (s : State) (attempts : List Attempt) : Prop :=
  Standing budget s attempts ∧ ∀ a ∈ attempts, a.Sound budget now

theorem stands_settled {earlier : List Attempt} (given : ∀ a ∈ earlier, a.abandoned = true)
    {now : Duration} {a : Attempt} (sound : ∀ other ∈ earlier ++ [a], other.Sound budget now)
    (going : a.ongoing = true) {outcome : Except String Nat}
    (settles : a.Settles budget now outcome) (after : s'.outcome = some outcome) :
    Stands budget now s' (close a.caller now none s'.outcome (earlier ++ [a])) := by
  rw [after, close_last given going]
  refine ⟨.settled given rfl after, fun other member => ?_⟩
  rcases List.mem_append.mp member with early | last
  · exact sound other (List.mem_append_left _ early)
  · obtain rfl := List.mem_singleton.mp last
    exact (sound a (by simp)).settle going settles

theorem Looked.stands {start : State} {b : Bootstrap} (looked : Looked budget start b s')
    {earlier : List Attempt} (given : ∀ a ∈ earlier, a.abandoned = true) {a : Attempt}
    (sound : ∀ other ∈ earlier ++ [a], other.Sound budget start.now) (runs : a.Runs budget b) :
    Stands budget start.now s' (close a.caller start.now none s'.outcome (earlier ++ [a])) := by
  cases looked with
  | waits verdict outcome turn queue =>
    rw [outcome, close_same]
    exact ⟨.ongoing given outcome turn runs, sound⟩
  | ends verdict after turn queue =>
    exact stands_settled given sound runs.ongoing (runs.settles verdict) after

theorem Stirs.stands {caller : Nat} {launches : List Launch}
    (stirs : Stirs budget s caller launches s') (line : InLine s) {attempts : List Attempt}
    (standing : Standing budget s attempts) (sound : ∀ a ∈ attempts, a.Sound budget s.now) :
    Stands budget s.now s' (close caller s.now s.outcome s'.outcome
      (attempts ++ launches.map (Attempt.begin caller))) := by
  have unheld : s.turn = .free ∨ s.turn = .granted caller → ∀ b, s.turn ≠ .taken b := by
    rintro (free | granted) b taken
    · cases taken.symm.trans free
    · cases taken.symm.trans granted
  have extended : ∀ launch : Launch, ∀ other ∈ attempts ++ [.begin caller launch],
      other.Sound budget s.now := by
    intro launch other member
    rcases List.mem_append.mp member with early | last
    · exact sound other early
    · obtain rfl := List.mem_singleton.mp last
      exact .begin
  cases stirs with
  | aside outcome turn queue =>
    rw [outcome, close_same, List.map_nil, List.append_nil]
    exact ⟨standing.congr outcome turn, sound⟩
  | queues active unsettled held fresh outcome turn queue =>
    rw [unsettled, outcome, close_same, List.map_nil, List.append_nil]
    exact ⟨standing.congr (outcome.trans unsettled.symm) turn, sound⟩
  | looks active unsettled taken own looked =>
    obtain ⟨earlier, a, rfl, given, -, runs⟩ := standing.of_taken line taken
    rw [unsettled, List.map_nil, List.append_nil, ← own, ← runs.caller]
    exact looked.stands given sound runs
  | @launches _ start active unsettled idle started looked =>
    have given := standing.of_untaken unsettled (unheld idle)
    have runs : (Attempt.begin caller ⟨s.slots, s.now, start⟩).Runs budget
        ⟨caller, s.slots, s.now + budget, start.mail⟩ := by
      refine ⟨rfl, rfl, rfl, ?_, started, rfl⟩
      cases arrived : start.mail <;> simp [Attempt.mail, Attempt.begin, arrived]
    rw [unsettled]
    exact looked.stands given (extended _) runs
  | @fails _ start message active unsettled idle refused after turn queue =>
    have given := standing.of_untaken unsettled (unheld idle)
    rw [unsettled]
    exact stands_settled given (extended _) rfl (.refused refused) after

end

/-! ## Over a run -/

/-- The attempts so far are accounted for, and those that were given up were so by calls of their
own. -/
structure Told (budget : Duration) (s : State) (attempts : List Attempt) : Prop where
  line : InLine s
  standing : Standing budget s attempts
  slots : attempts.map Attempt.slot = List.range s.slots
  sound : ∀ a ∈ attempts, a.Sound budget s.now
  apart : ((attempts.filter Attempt.abandoned).map Attempt.caller).Nodup
  cancelled : ∀ a ∈ attempts, a.abandoned = true → ∃ task,
    s.calls[a.caller]? = some ⟨task, .cancelled⟩

theorem filter_abandoned_close (caller : Nat) (now : Duration)
    (before after : Option (Except String Nat)) (attempts : List Attempt) :
    (close caller now before after attempts).filter Attempt.abandoned =
      attempts.filter Attempt.abandoned := by
  unfold close
  split
  · rename_i outcome
    induction attempts with
    | nil => rfl
    | cons a rest ih =>
      rw [List.map_cons, List.filter_cons, List.filter_cons, ih]
      by_cases going : a.caller = caller ∧ a.ongoing = true
      · have before : a.abandoned = false := by
          refine eq_false_of_ne_true fun given => ?_
          exact absurd going.2 (by simp [Attempt.not_ongoing_of_abandoned given])
        rw [Attempt.finish, if_pos going, before]
        rfl
      · rw [Attempt.finish, if_neg going]
  · rfl

theorem map_slot_close (caller : Nat) (now : Duration) (before after : Option (Except String Nat))
    (attempts : List Attempt) :
    (close caller now before after attempts).map Attempt.slot = attempts.map Attempt.slot := by
  unfold close
  split
  · simp [Attempt.slot, Function.comp_def]
  · rfl

theorem Stirs.slots {budget : Duration} {s s' : State} {caller : Nat} {launches : List Launch}
    (stirs : Stirs budget s caller launches s') :
    List.range s.slots ++ launches.map Launch.slot = List.range (s.slots + launches.length) := by
  cases stirs with
  | launches active unsettled idle started looked => exact List.range_succ.symm
  | fails active unsettled idle refused after turn queue => exact List.range_succ.symm
  | _ => exact List.append_nil _

theorem step_change {σ : Type} (provider : Provider σ) (budget : Duration) (s : State) (w : σ)
    (action : Action) : ∃ log, Change s log (step provider budget (s, w) action).1 := by
  cases action with
  | start task => exact ⟨_, .started task⟩
  | poll caller =>
    obtain ⟨s', w', record, -, plain, polled⟩ := poll_observed provider budget s w caller
    rw [step, plain]
    exact ⟨_, .polled polled⟩
  | cancel caller => exact ⟨_, cancel_change s caller⟩
  | deliver slot mail => exact ⟨_, deliver_change s slot mail⟩
  | advance span => exact ⟨_, .kept rfl rfl rfl⟩

namespace Told

variable {budget : Duration} {s : State} {attempts : List Attempt}

theorem begin : Told budget {} [] := by
  refine ⟨⟨nofun, .nil, nofun, fun _ => rfl, fun settled => absurd rfl settled, fun _ => rfl⟩, ?_, rfl,
    nofun, .nil, nofun⟩
  exact .vacant nofun rfl nofun

theorem heard (told : Told budget s attempts) {a : Attempt} (member : a ∈ attempts) (mail : Mail) :
    (deliver s a.slot mail).1 = true ↔ a.ongoing = true ∧ a.mail = [] := by
  constructor
  · intro heard
    by_cases held : ∃ b, s.turn = .taken b
    · obtain ⟨b, taken⟩ := held
      obtain ⟨earlier, last, rfl, -, -, runs⟩ := told.standing.of_taken told.line taken
      rw [deliver_taken taken] at heard
      split at heard
      · rename_i waits
        -- Slots are for one attempt each.
        have once := told.slots ▸ List.nodup_range (n := s.slots)
        obtain rfl : a = last := List.inj_on_of_nodup_map once member (by simp)
          (waits.1.symm.trans runs.slot.symm)
        exact ⟨runs.ongoing, List.head?_eq_none_iff.mp (runs.mail.trans waits.2)⟩
      · cases heard
    · rw [deliver_vacant fun b taken => held ⟨b, taken⟩] at heard
      cases heard
  · rintro ⟨ongoing, empty⟩
    obtain ⟨b, taken, runs⟩ := told.standing.of_ongoing member ongoing
    have unread : b.mail = none := by rw [← runs.mail, empty, List.head?_nil]
    rw [deliver_taken taken, if_pos ⟨runs.slot.symm, unread⟩]

theorem start (told : Told budget s attempts) (task : Task) : Told budget (s.start task).2 attempts := by
  refine ⟨told.line.start task, told.standing.congr rfl rfl, told.slots, told.sound, told.apart,
    fun a member given => ?_⟩
  obtain ⟨own, found⟩ := told.cancelled a member given
  exact ⟨own, Change.cancelled_stays (.started task) found⟩

theorem advance (told : Told budget s attempts) (span : Duration) :
    Told budget { s with now := s.now + span } attempts :=
  ⟨⟨told.line.waiting, told.line.once, told.line.holder, told.line.free, told.line.settled,
    told.line.running⟩, told.standing.congr rfl rfl, told.slots,
    fun a member => (told.sound a member).later span, told.apart, told.cancelled⟩

theorem deliver (told : Told budget s attempts) (slot : Nat) (mail : Mail) :
    Told budget (Runner.deliver s slot mail).2
      (attempts.map (Attempt.take slot s.now mail (Runner.deliver s slot mail).1)) := by
  obtain ⟨calls, -, -⟩ := deliver_calls s slot mail
  have frame : (Runner.deliver s slot mail).2.now = s.now ∧
      (Runner.deliver s slot mail).2.slots = s.slots := by
    rw [Runner.deliver]
    split
    · split <;> exact ⟨rfl, rfl⟩
    · exact ⟨rfl, rfl⟩
  refine ⟨told.line.deliver slot mail, told.standing.deliver told.line slot mail, ?_, ?_, ?_, ?_⟩
  · rw [frame.2, ← told.slots, List.map_map]
    exact List.map_congr_left fun a _ => by simp [Attempt.slot]
  · intro a member
    obtain ⟨before, old, rfl⟩ := List.mem_map.mp member
    rw [frame.1]
    refine (told.sound before old).take mail ?_
    rintro rfl
    exact told.heard old mail
  · rw [List.filter_map, List.map_map]
    simpa [Function.comp_def] using told.apart
  · intro a member given
    obtain ⟨before, old, rfl⟩ := List.mem_map.mp member
    rw [Attempt.take_abandoned] at given
    rw [calls, Attempt.take_caller]
    exact told.cancelled before old given

theorem finish_cases (told : Told budget s attempts) (caller : Nat) :
    attempts.map (Attempt.finish caller .abandoned) = attempts ∨
    ∃ earlier a, attempts = earlier ++ [a] ∧ (∀ a ∈ earlier, a.abandoned = true) ∧
      a.caller = caller ∧ a.ongoing = true ∧ s.Active caller := by
  by_cases own : ∃ b, s.turn = .taken b ∧ b.caller = caller
  · obtain ⟨b, taken, rfl⟩ := own
    obtain ⟨earlier, a, rfl, given, -, runs⟩ := told.standing.of_taken told.line taken
    have active := told.line.holder b.caller (by simp [holdsTurn, taken])
    exact .inr ⟨earlier, a, rfl, given, runs.caller, runs.ongoing, active⟩
  · refine .inl ((List.map_congr_left fun a member => ?_).trans (List.map_id attempts))
    by_cases ongoing : a.ongoing = true
    · obtain ⟨b, taken, runs⟩ := told.standing.of_ongoing member ongoing
      exact Attempt.finish_other _ fun same => own ⟨b, taken, runs.caller.symm.trans same⟩
    · exact Attempt.finish_closed _ _ (eq_false_of_ne_true ongoing)

theorem cancel (told : Told budget s attempts) (caller : Nat) :
    Told budget (Runner.cancel s caller) (attempts.map (Attempt.finish caller .abandoned)) := by
  have frame : (Runner.cancel s caller).now = s.now ∧ (Runner.cancel s caller).slots = s.slots := by
    by_cases active : s.Active caller
    · obtain ⟨-, -, -, now, slots, -⟩ := InLine.cancel_cases active
      exact ⟨now, slots⟩
    · rw [InLine.cancel_inactive active]
      exact ⟨rfl, rfl⟩
  have stays : ∀ a ∈ attempts, a.abandoned = true → ∃ task,
      (Runner.cancel s caller).calls[a.caller]? = some ⟨task, .cancelled⟩ := by
    intro a member given
    obtain ⟨task, found⟩ := told.cancelled a member given
    exact ⟨task, (cancel_change s caller).cancelled_stays found⟩
  refine ⟨told.line.cancel caller, told.standing.cancel told.line caller, ?_, ?_, ?_, ?_⟩
  · rw [frame.2, ← told.slots, List.map_map]
    exact List.map_congr_left fun a _ => by simp [Attempt.slot]
  · intro a member
    obtain ⟨before, old, rfl⟩ := List.mem_map.mp member
    rw [frame.1]
    exact (told.sound before old).abandon caller
  · rcases told.finish_cases caller with same | ⟨earlier, a, rfl, given, rfl, ongoing, active⟩
    · rw [same]
      exact told.apart
    · rw [List.map_append, List.map_singleton, Standing.finish_abandoned given,
        Attempt.finish_own _ ongoing]
      have apart := told.apart
      rw [List.filter_append, List.map_append] at apart ⊢
      refine (List.nodup_append.mp apart).1.append (List.nodup_singleton a.caller) ?_
      change List.Disjoint _ [a.caller]
      rw [List.disjoint_singleton, List.filter_eq_self.mpr given]
      -- Whoever gave up an attempt before does not go on.
      intro twice
      obtain ⟨other, early, same⟩ := List.mem_map.mp twice
      obtain ⟨task, found⟩ := told.cancelled other (by simp [early]) (given other early)
      obtain ⟨task', going⟩ := active
      cases found.symm.trans (same ▸ going)
  · rcases told.finish_cases caller with same | ⟨earlier, a, rfl, given, rfl, ongoing, active⟩
    · rw [same]
      exact stays
    · rw [List.map_append, List.map_singleton, Standing.finish_abandoned given,
        Attempt.finish_own _ ongoing]
      intro other member
      rcases List.mem_append.mp member with early | last
      · exact stays other (by simp [early])
      · obtain rfl := List.mem_singleton.mp last
        obtain ⟨task, found⟩ := active
        refine fun _ => ⟨task, ?_⟩
        rw [(InLine.cancel_cases ⟨task, found⟩).1, getElem?_modify_phase, if_pos rfl, found]
        rfl

section
variable {σ : Type} (provider : Provider σ)

theorem poll (told : Told budget s attempts) (w : σ) (caller : Nat) :
    Told budget (Runner.poll provider budget s w caller).1
      (recount provider budget attempts (s, w) (.poll caller)) := by
  obtain ⟨s', w', launches, eq, plain, now, slots, stirs⟩ := poll_stirs provider budget s w caller
  obtain ⟨s'', w'', record, -, same, polled⟩ := poll_observed provider budget s w caller
  cases plain.symm.trans same
  obtain ⟨standing, sound⟩ := stirs.stands told.line told.standing told.sound
  simp only [recount, eq, plain]
  have begun : ∀ a ∈ launches.map (Attempt.begin caller), ¬ a.abandoned = true := by
    intro a member
    obtain ⟨launch, -, rfl⟩ := List.mem_map.mp member
    nofun
  have given : (close caller s.now s.outcome s'.outcome
      (attempts ++ launches.map (Attempt.begin caller))).filter Attempt.abandoned =
        attempts.filter Attempt.abandoned := by
    rw [filter_abandoned_close, List.filter_append, List.filter_eq_nil_iff.mpr begun, List.append_nil]
  refine ⟨told.line.poll stirs polled, standing, ?_, now ▸ sound, given ▸ told.apart, ?_⟩
  · rw [map_slot_close, List.map_append, told.slots, List.map_map, slots, ← stirs.slots]
    rfl
  · intro a member abandoned
    have old : a ∈ attempts.filter Attempt.abandoned :=
      given ▸ List.mem_filter.mpr ⟨member, abandoned⟩
    obtain ⟨task, found⟩ := told.cancelled a (List.mem_filter.mp old).1 abandoned
    exact ⟨task, (Change.polled polled).cancelled_stays found⟩

theorem step (told : Told budget s attempts) (w : σ) (action : Action) :
    Told budget (Runner.step provider budget (s, w) action).1
      (recount provider budget attempts (s, w) action) := by
  cases action with
  | start task => exact told.start task
  | poll caller => exact told.poll provider w caller
  | cancel caller => exact told.cancel caller
  | deliver slot mail => exact told.deliver slot mail
  | advance span => exact told.advance span

theorem foldl (told : Told budget s attempts) (w : σ) (actions : List Action) :
    Told budget (run provider budget (s, w) actions).1
      (actions.foldl (tell provider budget) ((s, w), attempts)).2 := by
  induction actions generalizing s w attempts with
  | nil => exact told
  | cons action rest ih => exact ih (told.step provider w action) _

end

end Told

theorem told_run {σ : Type} (provider : Provider σ) (budget : Duration) (w : σ)
    (actions : List Action) :
    Told budget (run provider budget ({}, w) actions).1 (attempts provider budget w actions) :=
  Told.begin.foldl provider w actions

end Sandbox.Runner

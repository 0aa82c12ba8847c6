import Sandbox.Proofs.Runner.Succession

namespace Sandbox.Runner

open Engine

namespace Attempt

def uses (a : Attempt) : List Mail := a.launch.start.mail.toList ++ a.letters.map Letter.mail

def Gets (budget : Duration) (a : Attempt) (mail : Mail) : Prop :=
  a.launch.start.mail = some mail ∨
    ∃ letter ∈ a.letters, letter.mail = mail ∧ ¬ a.deadline budget ≤ letter.now

/-- No attempt is still there for what comes at its deadline or later. -/
def Punctual (budget : Duration) (a : Attempt) : Prop :=
  ∀ letter ∈ a.letters, letter.awaited = true → ¬ a.deadline budget ≤ letter.now

structure Decided (budget : Duration) (a : Attempt) (t : Duration) (outcome : Except String Nat) :
    Prop where
  ready : ∀ engine, outcome = .ok engine ↔
    a.launch.start.result = .ok () ∧ a.Gets budget (.published engine)
  refused : ∀ message, a.launch.start.result = .error message → outcome = .error message
  dropped : a.launch.start.result = .ok () → a.Gets budget .dropped →
    outcome = .error "engine stopped before publishing its execute capability"
  expired : a.launch.start.result = .ok () → (∀ mail, ¬ a.Gets budget mail) →
    outcome = .error (timeoutMessage budget) ∧ a.deadline budget ≤ t

variable {budget now t : Duration} {a : Attempt} {outcome : Except String Nat}

theorem letters_of_once (once : a.uses.length ≤ 1) {letter : Letter} (member : letter ∈ a.letters) :
    a.launch.start.mail = none ∧ a.letters = [letter] := by
  rw [uses, List.length_append, List.length_map] at once
  have some := List.length_pos_of_mem member
  constructor
  · cases first : a.launch.start.mail with
    | none => rfl
    | some mail =>
      rw [first, Option.toList_some, List.length_singleton] at once
      omega
  · obtain ⟨only, single⟩ := List.length_eq_one_iff.mp (show a.letters.length = 1 by omega)
    rw [single] at member ⊢
    rw [List.mem_singleton.mp member]

theorem Sound.gets_iff (sound : a.Sound budget now) (once : a.uses.length ≤ 1)
    (punctual : a.Punctual budget) (ended : a.ending = some (.settled t outcome))
    (started : a.launch.start.result = .ok ()) (mail : Mail) :
    a.Gets budget mail ↔ a.mail.head? = some mail := by
  constructor
  · rintro (first | ⟨letter, member, rfl, early⟩)
    · rw [Attempt.mail, first]
      rfl
    · obtain ⟨silent, single⟩ := letters_of_once once member
      cases awaited : letter.awaited with
      | true => simp [Attempt.mail, silent, single, awaited]
      | false =>
        -- The attempt had ended by then, but neither by mail nor by its deadline.
        have empty : a.mail = [] := by simp [Attempt.mail, silent, single, awaited]
        obtain ⟨settles, -, after⟩ := sound.settled t outcome ended
        have late := after letter member awaited
        cases settles with
        | refused refused => cases started.symm.trans refused
        | received _ first => cases (empty ▸ first : ([] : List Mail).head? = _)
        | expired _ _ due => exact absurd (Nat.le_trans due late) early
  · intro read
    cases first : a.launch.start.mail with
    | some other =>
      rw [Attempt.mail, first] at read
      cases read
      exact .inl first
    | none =>
      rw [Attempt.mail, first, Option.toList_none, List.nil_append] at read
      obtain ⟨letter, member, rfl⟩ := List.mem_map.mp (List.mem_of_head? read)
      obtain ⟨member, awaited⟩ := List.mem_filter.mp member
      exact .inr ⟨letter, member, rfl, punctual letter member awaited⟩

theorem Sound.decided (sound : a.Sound budget now) (once : a.uses.length ≤ 1)
    (punctual : a.Punctual budget) (ended : a.ending = some (.settled t outcome)) :
    a.Decided budget t outcome := by
  have gets := sound.gets_iff once punctual ended
  obtain ⟨settles, -, -⟩ := sound.settled t outcome ended
  cases settles with
  | refused refused =>
    have never : a.launch.start.result ≠ .ok () := by
      rw [refused]
      nofun
    refine ⟨fun engine => ⟨nofun, fun both => absurd both.1 never⟩, fun message same => ?_,
      fun started => absurd started never, fun started => absurd started never⟩
    cases refused.symm.trans same
    rfl
  | @received mail started first =>
    have only : ∀ other, a.Gets budget other ↔ mail = other := by
      intro other
      rw [gets started, first, Option.some.injEq]
    refine ⟨fun engine => ?_, fun message refused => ?_, fun _ dropped => ?_, fun _ none => ?_⟩
    · rw [only, and_iff_right started]
      cases mail <;> simp [mailOutcome]
    · cases started.symm.trans refused
    · obtain rfl := (only _).mp dropped
      rfl
    · exact absurd ((only mail).mpr rfl) (none mail)
  | expired started empty due =>
    have nothing : ∀ mail, ¬ a.Gets budget mail := by
      intro mail
      rw [gets started, empty]
      nofun
    refine ⟨fun engine => ⟨nofun, fun both => absurd both.2 (nothing _)⟩, fun message refused => ?_,
      fun _ dropped => absurd dropped (nothing _), fun _ _ => ⟨rfl, due⟩⟩
    cases started.symm.trans refused

end Attempt

/-! ## Attempts in a run -/

section
variable {σ : Type} {provider : Provider σ} {budget : Duration} {s : State} {attempts : List Attempt}

end

section
variable {σ : Type} (provider : Provider σ) (budget : Duration)

end

end Sandbox.Runner

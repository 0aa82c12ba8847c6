import Sandbox.Frame.Stream

namespace Sandbox.Frame

namespace Source

variable (source : Source)

def reach : Nat :=
  match source.fault with
  | some (limit, _) => min limit source.data.size
  | none => source.data.size

def drained (mode : Mode) : ReadFault :=
  .ended (match mode with
    | .blocking => "failed to fill whole buffer"
    | .async => "early eof")

/-- Why the source stops there. An end is noticed only before the fault. -/
def ending (mode : Mode) : ReadFault :=
  match source.fault with
  | some (limit, fault) => if limit ≤ source.data.size then fault else drained mode
  | none => drained mode

variable {source}

theorem reach_le : source.reach ≤ source.data.size := by
  rw [reach]
  split
  · exact Nat.min_le_right ..
  · exact Nat.le_refl _

theorem stop?_before (mode : Mode) {given : Nat} (before : given < source.reach) :
    source.stop? mode given = none := by
  unfold reach at before
  unfold stop? stop?.drained?
  grind

theorem stop?_reach {mode : Mode} : source.stop? mode source.reach = some (source.ending mode) := by
  unfold stop? stop?.drained? reach ending drained
  grind

theorem gives_le {given : Nat} (wanted : Nat) (before : given < source.reach) :
    given + source.gives given wanted ≤ source.reach ∧ source.gives given wanted ≤ wanted := by
  unfold reach at before ⊢
  unfold gives
  grind

theorem readAll_eq {mode : Mode} {given wanted : Nat} (started : given ≤ source.reach) :
    source.readAll mode given wanted =
      if given + wanted ≤ source.reach then (given + wanted, none)
      else (source.reach, some (source.ending mode)) := by
  induction wanted using Nat.strongRecOn generalizing given with
  | ind wanted ih =>
    rw [readAll]
    by_cases nothing : wanted = 0
    · rw [if_pos nothing, nothing, Nat.add_zero, if_pos started]
    rw [if_neg nothing]
    rcases Nat.lt_or_ge given source.reach with before | there
    · have goesOn := stop?_before mode before
      have some_given := gives_pos goesOn nothing
      obtain ⟨within, no_more⟩ := gives_le wanted before
      split
      · rename_i stopped
        cases goesOn.symm.trans stopped
      · rw [ih _ (by omega) within]
        have same : given + source.gives given wanted + (wanted - source.gives given wanted) =
            given + wanted := by omega
        rw [same]
    · obtain rfl : given = source.reach := Nat.le_antisymm started there
      rw [if_neg (by omega)]
      split
      · rename_i stopped
        rw [Option.some.inj (stop?_reach.symm.trans stopped)]
      · rename_i goesOn
        cases stop?_reach.symm.trans goesOn

end Source

end Sandbox.Frame

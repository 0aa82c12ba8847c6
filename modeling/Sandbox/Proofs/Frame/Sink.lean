import Sandbox.Proofs.Frame.Stream

namespace Sandbox.Frame

namespace Sink

variable {sink : Sink}

theorem takes_le (sink : Sink) (held offered : Nat) : sink.takes held offered ≤ offered := by
  unfold takes
  grind

def space (sink : Sink) (held offered : Nat) : Nat :=
  match sink.room with
  | some room => min offered (room - held)
  | none => offered

theorem space_le (sink : Sink) (held offered : Nat) : sink.space held offered ≤ offered := by
  unfold space
  split <;> omega

theorem takes_eq_zero_iff {held offered : Nat} :
    sink.takes held offered = 0 ↔ sink.space held offered = 0 := by
  unfold takes space
  cases sink.room with
  | none =>
    dsimp only
    omega
  | some room =>
    dsimp only
    omega

theorem space_eq_takes_add (sink : Sink) (held offered : Nat) : sink.space held offered =
    sink.takes held offered +
      sink.space (held + sink.takes held offered) (offered - sink.takes held offered) := by
  unfold takes space
  cases sink.room with
  | none =>
    dsimp only
    omega
  | some room =>
    dsimp only
    omega

theorem space_add (sink : Sink) (held first second : Nat) : sink.space held (first + second) =
    if sink.space held first = first then first + sink.space (held + first) second
    else sink.space held first := by
  unfold space
  cases sink.room with
  | none => exact (if_pos rfl).symm
  | some room =>
    dsimp only
    split <;> omega

theorem writeAll_eq (sink : Sink) (mode : Mode) (held offered : Nat) :
    sink.writeAll mode held offered = (held + sink.space held offered,
      if sink.space held offered = offered then none else some (reason mode sink.full)) := by
  induction offered using Nat.strongRecOn generalizing held with
  | ind offered ih =>
    rw [writeAll]
    have within := sink.space_le held offered
    split
    · rename_i nothing
      have taken : sink.space held offered = 0 := by omega
      rw [taken, nothing, if_pos rfl, Nat.add_zero]
    split
    · rename_i something none_taken
      rw [takes_eq_zero_iff] at none_taken
      rw [none_taken, if_neg (Ne.symm something), Nat.add_zero]
    · rename_i something some_taken
      have part := sink.takes_le held offered
      have split := sink.space_eq_takes_add held offered
      rw [ih _ (by omega), split, Nat.add_assoc]
      congr 2
      apply propext
      omega

structure Unlimited (sink : Sink) : Prop where
  room : sink.room = none
  flushes : sink.flushFault = none

theorem Unlimited.space_eq (unlimited : sink.Unlimited) (held offered : Nat) :
    sink.space held offered = offered := by
  rw [space, unlimited.room]

def verdict (sink : Sink) (mode : Mode) (size taken : Nat) : Except Failure Unit :=
  if taken < 4 then .error (.link (.unwritten .length (reason mode sink.full)))
  else if taken < 4 + size then .error (.link (.unwritten .body (reason mode sink.full)))
  else match sink.flushFault with
    | some reason => .error (.link (.unflushed reason))
    | none => .ok ()

theorem verdict_eq_ok_iff {sink : Sink} {mode : Mode} {size taken : Nat}
    (within : taken ≤ 4 + size) : sink.verdict mode size taken = .ok () ↔
      taken = 4 + size ∧ sink.flushFault = none := by
  rw [verdict]
  split
  · constructor
    · nofun
    · omega
  split
  · constructor
    · nofun
    · omega
  have whole : taken = 4 + size := by omega
  cases sink.flushFault with
  | none => exact iff_of_true rfl ⟨whole, rfl⟩
  | some reason => exact iff_of_false nofun nofun

end Sink

theorem writeFrame_eq (sink : Sink) (mode : Mode) (held size : Nat) :
    writeFrame sink mode held size = ⟨held + sink.space held (4 + size),
      decide (sink.space held (4 + size) = 4 + size),
      sink.verdict mode size (sink.space held (4 + size))⟩ := by
  have split := sink.space_add held 4 size
  have word := sink.space_le held 4
  have rest := sink.space_le (held + 4) size
  rw [writeFrame, sink.writeAll_eq mode held 4]
  by_cases length : sink.space held 4 = 4
  · rw [if_pos length] at split
    rw [if_pos length, length, split]
    dsimp only
    rw [sink.writeAll_eq mode (held + 4) size]
    by_cases body : sink.space (held + 4) size = size
    · rw [if_pos body, body, Sink.verdict, if_neg (by omega), if_neg (by omega)]
      cases sink.flushFault <;> simp [Nat.add_assoc]
    · rw [if_neg body, Sink.verdict, if_neg (by omega), if_pos (by omega)]
      simp [Nat.add_assoc, body]
  · rw [if_neg length] at split
    have cut : ¬sink.space held 4 = 4 + size := by omega
    rw [if_neg length, split, Sink.verdict, if_pos (by omega)]
    simp only [cut, decide_false]

section
variable {α : Type} [Framed α] {message : α} {body : ByteArray}

theorem write_oversized {cause : Failure} (unframed : encode message = .error cause) (sink : Sink)
    (mode : Mode) (held : Nat) :
    write sink mode held message = (ByteArray.empty, ⟨held, false, .error cause⟩) := by
  simp only [write, unframed]

theorem write_eq (encoded : encode message = .ok body) (sink : Sink) (mode : Mode) (held : Nat) :
    write sink mode held message = ((enclose body).extract 0 (sink.space held (4 + body.size)),
      writeFrame sink mode held body.size) := by
  simp only [write, encoded, writeFrame_eq, Nat.add_sub_cancel_left]

theorem size_write (encoded : encode message = .ok body) (sink : Sink) (mode : Mode) (held : Nat) :
    (write sink mode held message).1.size = sink.space held (4 + body.size) := by
  rw [write_eq encoded, ByteArray.size_extract, size_enclose, Nat.sub_zero,
    Nat.min_eq_left (sink.space_le ..)]

theorem write_cases (encoded : encode message = .ok body) (sink : Sink) (mode : Mode) (held : Nat) :
    ∃ rest, (write sink mode held message).1 ++ rest = enclose body ∧
      (write sink mode held message).2.held = held + (write sink mode held message).1.size ∧
      ((write sink mode held message).2.outcome = .ok () → rest = ByteArray.empty) := by
  rw [size_write encoded, write_eq encoded, writeFrame_eq]
  refine ⟨_, extract_split (enclose body) (sink.space held (4 + body.size)), rfl, ?_⟩
  intro written
  obtain ⟨whole, -⟩ := (Sink.verdict_eq_ok_iff (sink.space_le ..)).mp written
  rw [whole, size_enclose, ByteArray.extract_same]

theorem Sink.Unlimited.write {sink : Sink} (unlimited : sink.Unlimited)
    (encoded : encode message = .ok body) (mode : Mode) (held : Nat) :
    Frame.write sink mode held message =
      (enclose body, ⟨held + (enclose body).size, true, .ok ()⟩) := by
  have written : sink.verdict mode body.size (4 + body.size) = .ok () :=
    (Sink.verdict_eq_ok_iff (Nat.le_refl _)).mpr ⟨rfl, unlimited.flushes⟩
  rw [write_eq encoded, writeFrame_eq, unlimited.space_eq, written, ← size_enclose,
    ByteArray.extract_zero_size, decide_eq_true rfl]

end

end Sandbox.Frame

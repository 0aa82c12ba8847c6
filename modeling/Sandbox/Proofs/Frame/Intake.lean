import Sandbox.Proofs.Frame.Stream

namespace Sandbox.Frame

theorem wordBytes_wordAt {data : ByteArray} {position : Nat} (within : position + 4 ≤ data.size) :
    (wordBytes (wordAt data position)).toByteArray = data.extract position (position + 4) := by
  have first := byteAt_lt data position
  have second := byteAt_lt data (position + 1)
  have third := byteAt_lt data (position + 2)
  have fourth := byteAt_lt data (position + 3)
  apply ByteArray.ext_getElem
  · simp [wordBytes]
    omega
  · intro i inWord inData
    have bounded : i < 4 := by simpa [wordBytes] using inWord
    rw [List.getElem_toByteArray, ByteArray.getElem_extract, ← UInt8.toNat_inj,
      ← byteAt_eq_getElem (by omega)]
    interval_cases i <;> simp [wordBytes, wordAt] <;> omega

theorem extract_join (data : ByteArray) {start middle stop : Nat} (ordered : start ≤ middle)
    (onward : middle ≤ stop) :
    data.extract start middle ++ data.extract middle stop = data.extract start stop := by
  rw [ByteArray.extract_append_extract, Nat.min_eq_left ordered, Nat.max_eq_right onward]

section
variable {α : Type} [Framed α]

/-- The bytes are complete frames that read as these messages, each in a body of any layout. -/
inductive Conveys : ByteArray → List α → Prop
  | nil : Conveys ByteArray.empty []
  | cons {message : α} {body rest : ByteArray} {messages : List α} (bounded : body.size ≤ maxBody)
    (decoded : decode body = .ok message) (conveys : Conveys rest messages) :
    Conveys (enclose body ++ rest) (message :: messages)

theorem Conveys.concat {data body : ByteArray} {messages : List α} {message : α}
    (conveys : Conveys data messages) (bounded : body.size ≤ maxBody)
    (decoded : decode body = .ok message) :
    Conveys (data ++ enclose body) (messages ++ [message]) := by
  induction conveys with
  | nil =>
    have last : Conveys (enclose body ++ ByteArray.empty) [message] := .cons bounded decoded .nil
    simpa using last
  | cons bounded' decoded' conveys ih =>
    rw [ByteArray.append_assoc]
    exact .cons bounded' decoded' ih

theorem readFrame_message {front rest : ByteArray} {message : α} {stop : Nat}
    (read : readFrame (.ofBytes (front ++ rest)) .async front.size = (.message message, stop)) :
    ∃ body rest', rest = enclose body ++ rest' ∧ body.size ≤ maxBody ∧
      decode body = .ok message ∧ stop = (front ++ enclose body).size := by
  obtain ⟨data, split⟩ : ∃ data, data = front ++ rest := ⟨_, rfl⟩
  rw [← split] at read
  have sizes := congrArg ByteArray.size split
  rw [ByteArray.size_append] at sizes
  rcases Nat.lt_or_ge data.size (front.size + 4) with early | late
  · obtain ⟨given, reason, stops⟩ : ∃ stop reason,
        (Source.ofBytes data).readAll .async front.size 4 = (stop, some (.ended reason)) :=
      Source.readAll_beyond early (by decide)
    simp [readFrame, stops] at read
  simp only [readFrame, Source.readAll_within late] at read
  obtain ⟨length, word⟩ : ∃ length, wordAt (Source.ofBytes data).data front.size = length :=
    ⟨_, rfl⟩
  simp only [word] at read
  change wordAt data front.size = length at word
  split at read
  · cases read
  rename_i bounded
  rcases Nat.lt_or_ge data.size (front.size + 4 + length) with cut | whole
  · obtain ⟨given, reason, stops⟩ : ∃ stop reason,
        (Source.ofBytes data).readAll .async (front.size + 4) length =
          (stop, some (.ended reason)) := Source.readAll_beyond cut (by omega)
    simp [stops] at read
  simp only [Source.readAll_within whole] at read
  split at read
  · rename_i message' decoded
    cases read
    have length_eq : (data.extract (front.size + 4) (front.size + 4 + length)).size = length := by
      rw [ByteArray.size_extract]
      omega
    refine ⟨data.extract (front.size + 4) (front.size + 4 + length),
      data.extract (front.size + 4 + length) data.size, ?_, ?_, decoded, ?_⟩
    · have behind : rest = data.extract front.size data.size := by
        rw [split, ByteArray.size_append, ByteArray.extract_append_eq_right rfl rfl]
      rw [behind, enclose, length_eq, ← word, wordBytes_wordAt late, word,
        extract_join data (by omega) (by omega), extract_join data (by omega) whole]
    · omega
    · rw [ByteArray.size_append, size_enclose, length_eq]
      omega
  · cases read

theorem readFrame_finished {data : ByteArray} {given stop : Nat}
    (read : readFrame (α := α) (.ofBytes data) .async given = (.finished, stop)) :
    data.size < given + 4 := by
  by_contra late
  simp only [readFrame, Source.readAll_within (Nat.le_of_not_lt late)] at read
  split at read
  · cases read
  · split at read
    · cases read
    · split at read <;> cases read

end

end Sandbox.Frame

import Sandbox.Proofs.Frame.Canonical

namespace Sandbox.Frame

namespace Cell

structure Lies (body : ByteArray) (root cell : Nat) (text : String) (extent : Nat × Nat) : Prop where
  stands : root ≤ cell ∧ cell + size ≤ body.size
  ordered : extent.1 ≤ extent.2
  within : extent.2 ≤ body.size
  bytes : text.toUTF8 = body.extract extent.1 extent.2
  valid : (body.extract extent.1 extent.2).IsValidUTF8
  place : extent.1 = cell ∧ extent.2 ≤ cell + size ∨
    extent.1 + size < extent.2 ∧ extent.2 ≤ root

theorem extent?_within {body : ByteArray} {root floor cell start stop : Nat}
    (rooted : root ≤ body.size) (cell_within : cell + size ≤ body.size)
    (extent : extent? body root floor cell = some (start, stop)) :
    start ≤ stop ∧ stop ≤ body.size := by
  unfold extent? at extent
  split at extent
  · simp only [Option.ite_none_right_eq_some, Option.some.injEq, Prod.mk.injEq] at extent
    obtain ⟨⟨long, behind, before⟩, rfl, rfl⟩ := extent
    omega
  · simp only [Option.some.injEq, Prod.mk.injEq] at extent
    obtain ⟨rfl, rfl⟩ := extent
    have short := inlineLength_le body cell
    omega

theorem decode?_lies {body : ByteArray} {root floor cell next : Nat} {text : String}
    (behind : root ≤ cell) (cell_within : cell + size ≤ body.size)
    (read : decode? body root floor cell = some (text, next)) :
    ∃ extent, Lies body root cell text extent ∧
      (extent.1 < root ∧ floor ≤ extent.1 ∧ next = extent.2 ∨ root ≤ extent.1 ∧ next = floor) := by
  obtain ⟨start, stop, extent, bytes, rfl⟩ := decode?_eq_some read
  obtain ⟨ordered, within⟩ := extent?_within (by omega) cell_within extent
  have valid : (body.extract start stop).IsValidUTF8 := bytes ▸ text.isValidUTF8
  refine ⟨(start, stop), ?_⟩
  cases mark : isOutOfLineMark (byteAt body cell) with
  | false =>
    simp only [extent?, mark, Bool.false_eq_true, if_false, Option.some.injEq, Prod.mk.injEq] at extent
    obtain ⟨rfl, rfl⟩ := extent
    have short := inlineLength_le body cell
    exact ⟨⟨⟨behind, cell_within⟩, ordered, within, bytes, valid, .inl ⟨rfl, by omega⟩⟩,
      .inr ⟨behind, rfl⟩⟩
  | true =>
    simp only [extent?, mark, if_true, Option.ite_none_right_eq_some, Option.some.injEq,
      Prod.mk.injEq] at extent
    obtain ⟨⟨long, above, before⟩, rfl, rfl⟩ := extent
    refine ⟨⟨⟨behind, cell_within⟩, ordered, within, bytes, valid, .inr ?_⟩, .inl ?_⟩
    · dsimp only
      omega
    · dsimp only
      refine ⟨?_, ?_, rfl⟩ <;> omega

end Cell

namespace Body

def cellAt (root : Nat) : Nat → Nat
  | 0 => root
  | i + 1 => root + textsAt + Cell.size * i

def outside (root : Nat) (extents : List (Nat × Nat)) : List (Nat × Nat) :=
  extents.filter fun extent => decide (extent.1 < root)

/-- Strings and their extents in the order of their cells. Those outside the cells follow one another
from the floor on. -/
structure Laid (body : ByteArray) (root floor : Nat) (cells : Nat → Nat) (strings : List String)
    (extents : List (Nat × Nat)) : Prop where
  counted : extents.length = strings.length
  lies : ∀ (i : Nat) (string : String) (extent : Nat × Nat), strings[i]? = some string →
    extents[i]? = some extent → Cell.Lies body root (cells i) string extent
  above : ∀ extent ∈ outside root extents, floor ≤ extent.1
  apart : (outside root extents).Pairwise fun first second => first.2 ≤ second.1

theorem Laid.nil (body : ByteArray) (root floor : Nat) (cells : Nat → Nat) :
    Laid body root floor cells [] [] :=
  ⟨rfl, by simp, by simp [outside], .nil⟩

theorem Laid.cons {body : ByteArray} {root floor next : Nat} (cells : Nat → Nat) {string : String}
    {strings : List String} {extents : List (Nat × Nat)} (behind : root ≤ cells 0)
    (within : cells 0 + Cell.size ≤ body.size)
    (read : Cell.decode? body root floor (cells 0) = some (string, next))
    (laid : Laid body root next (fun i => cells (i + 1)) strings extents) :
    ∃ extent, Laid body root floor cells (string :: strings) (extent :: extents) := by
  obtain ⟨extent, lies, moves⟩ := Cell.decode?_lies behind within read
  have each : ∀ (i : Nat) (other : String) (extent' : Nat × Nat),
      (string :: strings)[i]? = some other → (extent :: extents)[i]? = some extent' →
      Cell.Lies body root (cells i) other extent' := by
    intro i other extent' found found'
    cases i with
    | zero =>
      cases found
      cases found'
      exact lies
    | succ i => exact laid.lies i other extent' found found'
  suffices follow : (∀ other ∈ outside root (extent :: extents), floor ≤ other.1) ∧
      (outside root (extent :: extents)).Pairwise fun first second => first.2 ≤ second.1 from
    ⟨extent, congrArg Nat.succ laid.counted, each, follow.1, follow.2⟩
  rcases moves with ⟨out, above, rfl⟩ | ⟨inside, rfl⟩
  · have first : outside root (extent :: extents) = extent :: outside root extents :=
      List.filter_cons_of_pos (by simpa using out)
    rw [first]
    refine ⟨?_, List.pairwise_cons.mpr ⟨laid.above, laid.apart⟩⟩
    intro other member
    rcases List.mem_cons.mp member with rfl | later
    · exact above
    · exact Nat.le_trans above (Nat.le_trans lies.ordered (laid.above other later))
  · have rest : outside root (extent :: extents) = outside root extents :=
      List.filter_cons_of_neg (by simpa using inside)
    rw [rest]
    exact ⟨laid.above, laid.apart⟩

theorem laid_of_decodeTexts? {body : ByteArray} {root : Nat} {count cell floor : Nat}
    {texts : List String} (behind : root ≤ cell) (within : cell + Cell.size * count ≤ body.size)
    (read : decodeTexts? body root count cell floor = some texts) :
    ∃ extents, Laid body root floor (fun i => cell + Cell.size * i) texts extents := by
  induction count generalizing cell floor texts with
  | zero =>
    cases read
    exact ⟨[], .nil ..⟩
  | succ count ih =>
    simp only [decodeTexts?, Option.bind_eq_bind, Option.bind_eq_some_iff, Option.pure_def,
      Option.some.injEq] at read
    obtain ⟨⟨text, next⟩, first, rest, later, rfl⟩ := read
    rw [Nat.mul_succ] at within
    obtain ⟨extents, laid⟩ := ih (by omega) (by omega) later
    have cells : (fun i => cell + Cell.size + Cell.size * i) = fun i => cell + Cell.size * (i + 1) := by
      funext i
      rw [Nat.mul_succ]
      omega
    rw [cells] at laid
    obtain ⟨extent, laid⟩ := Laid.cons (fun i => cell + Cell.size * i) behind (by
      rw [Nat.mul_zero, Nat.add_zero]
      omega) first laid
    exact ⟨_, laid⟩

theorem length_of_decodeTexts? {body : ByteArray} {root count cell floor : Nat}
    {texts : List String} (read : decodeTexts? body root count cell floor = some texts) :
    texts.length = count := by
  induction count generalizing cell floor texts with
  | zero =>
    cases read
    rfl
  | succ count ih =>
    simp only [decodeTexts?, Option.bind_eq_bind, Option.bind_eq_some_iff, Option.pure_def,
      Option.some.injEq] at read
    obtain ⟨⟨text, next⟩, first, rest, later, rfl⟩ := read
    exact congrArg Nat.succ (ih later)

theorem sum_size_le (strings : List ByteArray) :
    (strings.map ByteArray.size).sum ≤ heapSize strings + Cell.size * strings.length := by
  induction strings with
  | nil => exact Nat.zero_le _
  | cons string rest ih =>
    have one : string.size ≤ (Cell.spill string).size + Cell.size := by
      rw [Cell.spill]
      split
      · rename_i inline
        have short : string.size ≤ Cell.size := by simpa [Cell.isInline] using inline
        omega
      · omega
    rw [List.map_cons, List.sum_cons, heapSize_cons, List.length_cons, Nat.mul_succ]
    omega

end Body

structure Placed (layout : Layout) (body : ByteArray) (record : Record) (root : Nat)
    (extents : List (Nat × Nat)) : Prop where
  size : body.size = root + layout.rootSize
  laid : Body.Laid body root 0 (Body.cellAt root) (record.id :: record.texts) extents
  total : ((record.id :: record.texts).map fun string => string.toUTF8.size).sum ≤ body.size

theorem Body.placed_of_decode? {layout : Layout} {body : ByteArray} {record : Record}
    (read : decode? layout body = some record)
    (room : textsAt + Cell.size * record.texts.length ≤ layout.rootSize) :
    ∃ root extents, Placed layout body record root extents := by
  have canonical := size_le_of_decode? read
  have sum := sum_size_le ((record.id :: record.texts).map String.toUTF8)
  simp only [decode?, guard, Option.bind_eq_bind, Option.bind_eq_some_iff, Option.pure_def,
    Option.some.injEq, Option.failure_eq_none, Option.ite_none_right_eq_some] at read
  obtain ⟨-, ⟨⟨roomy, aligned⟩, -⟩, count, counted, ⟨id, floor⟩, identified, texts, found, rfl⟩ :=
    read
  dsimp only at room sum canonical
  obtain ⟨root, sized⟩ : ∃ root, body.size = root + layout.rootSize :=
    ⟨_, (Nat.sub_add_cancel roomy).symm⟩
  rw [sized, Nat.add_sub_cancel] at identified found
  rw [length_of_decodeTexts? found, textsAt, Cell.size] at room
  obtain ⟨extents, laid⟩ := laid_of_decodeTexts? (Nat.le_add_right ..)
    (by rw [textsAt, Cell.size]; omega) found
  obtain ⟨extent, laid⟩ := Laid.cons (cellAt root) (Nat.le_refl _)
    (by rw [cellAt, Cell.size]; omega) identified laid
  refine ⟨root, _, sized, laid, ?_⟩
  rw [List.map_map, List.length_map, List.length_cons, length_of_decodeTexts? found,
    Cell.size] at sum
  have total : ((id :: texts).map (ByteArray.size ∘ String.toUTF8)).sum ≤ body.size := by
    dsimp only [size] at canonical
    omega
  exact total

theorem placed_of_decode {α : Type} [Framed α] [LawfulFramed α] [FaithfulFramed α]
    {body : ByteArray} {message : α} (accepted : decode body = .ok message) :
    ∃ root extents, Placed (Framed.layout α) body (Framed.record message) root extents := by
  unfold decode at accepted
  split at accepted
  · rename_i message' found
    cases accepted
    obtain ⟨record, read, same⟩ := Option.bind_eq_some_iff.mp found
    obtain rfl := FaithfulFramed.record_of_ofRecord? same
    exact Body.placed_of_decode? read (LawfulFramed.fits message).room
  · cases accepted

end Sandbox.Frame

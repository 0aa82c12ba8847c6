import Mathlib
import Sandbox.Proofs.Frame.Source

/-!
Readers against a reference. The reference divides a list of bytes into frames and says how much is
left at its end; readers find exactly that, in whatever pieces the bytes come, and a fault takes from
them only the frames that do not end before it.
-/

namespace Sandbox.Frame

/-! ## The reference -/

def littleEndian : List UInt8 → Nat
  | [] => 0
  | byte :: rest => byte.toNat + 256 * littleEndian rest

/-- The frames of a stream, each with its result and its size; then the part of a further frame in
which the stream stops, and how many bytes of that frame there are. -/
structure Division (α : Type) where
  frames : List (Item α × Nat)
  part : FramePart
  left : Nat

def sizes {α : Type} (frames : List (Item α × Nat)) : List Nat := frames.map Prod.snd

def leading {α : Type} : List (Item α × Nat) → List (Item α × Nat)
  | [] => []
  | (item, size) :: rest =>
    if item.continues then (item, size) :: leading rest else [(item, size)]

def Division.push {α : Type} (frame : Item α × Nat) (division : Division α) : Division α :=
  { division with frames := frame :: division.frames }

def Item.stopped {α : Type} : Mode → FramePart → ReadFault → Item α
  | .async, .length, .ended _ => .finished
  | _, part, fault => .failure (.link (.unread part fault.reason))

def Division.results {α : Type} (division : Division α) (mode : Mode) (fault : ReadFault)
    (count : Nat) : List (Item α × Nat) :=
  (division.frames ++ (Item.stopped mode division.part fault, division.left) ::
    List.replicate count (Item.stopped mode .length fault, 0)).take count

def within {α : Type} : Nat → List (Item α × Nat) → List (Item α × Nat)
  | _, [] => []
  | limit, (item, size) :: rest =>
    if size ≤ limit then (item, size) :: within (limit - size) rest else []

section
variable {α : Type} [Framed α]

def Item.ofBody (body : List UInt8) : Item α :=
  match decode body.toByteArray with
  | .ok value => .message value
  | .error cause => .failure cause

def divide (bytes : List UInt8) : Division α :=
  if bytes.length < 4 then ⟨[], .length, bytes.length⟩
  else
    let length := littleEndian (bytes.take 4)
    if maxBody < length then
      (divide (bytes.drop 4)).push (.failure (.link (.oversized length)), 4)
    else if bytes.length < 4 + length then ⟨[], .body, bytes.length⟩
    else
      (divide (bytes.drop (4 + length))).push (.ofBody ((bytes.drop 4).take length), 4 + length)
termination_by bytes.length

section
variable {bytes : List UInt8}

theorem divide_short (short : bytes.length < 4) :
    divide (α := α) bytes = ⟨[], .length, bytes.length⟩ := by
  rw [divide, if_pos short]

theorem divide_oversized (long : ¬bytes.length < 4)
    (oversized : maxBody < littleEndian (bytes.take 4)) :
    divide (α := α) bytes = (divide (bytes.drop 4)).push
      (.failure (.link (.oversized (littleEndian (bytes.take 4)))), 4) := by
  rw [divide, if_neg long]
  exact if_pos oversized

theorem divide_cut (long : ¬bytes.length < 4) (bounded : ¬maxBody < littleEndian (bytes.take 4))
    (cut : bytes.length < 4 + littleEndian (bytes.take 4)) :
    divide (α := α) bytes = ⟨[], .body, bytes.length⟩ := by
  rw [divide, if_neg long]
  exact (if_neg bounded).trans (if_pos cut)

theorem divide_whole (long : ¬bytes.length < 4) (bounded : ¬maxBody < littleEndian (bytes.take 4))
    (whole : ¬bytes.length < 4 + littleEndian (bytes.take 4)) :
    divide (α := α) bytes = (divide (bytes.drop (4 + littleEndian (bytes.take 4)))).push
      (.ofBody ((bytes.drop 4).take (littleEndian (bytes.take 4))),
        4 + littleEndian (bytes.take 4)) := by
  rw [divide, if_neg long]
  exact (if_neg bounded).trans (if_neg whole)

end

def reads (source : Source) (mode : Mode) : Nat → Nat → List (Item α × Nat)
  | 0, _ => []
  | count + 1, given =>
    let read := readFrame source mode given
    (read.1, read.2 - given) :: reads source mode count read.2

end

/-! ## One read -/

namespace Source

variable (source : Source)

def rest (given : Nat) : List UInt8 := (source.data.data.toList.take source.reach).drop given

variable {source} {given : Nat}

theorem length_rest (given : Nat) : (source.rest given).length = source.reach - given := by
  have := source.reach_le
  simp only [rest, List.length_drop, List.length_take, Array.length_toList, ByteArray.size_data]
  omega

theorem rest_add (count : Nat) : source.rest (given + count) = (source.rest given).drop count := by
  rw [rest, rest, List.drop_drop]

theorem rest_reach : source.rest source.reach = [] := by
  rw [← List.length_eq_zero_iff, length_rest, Nat.sub_self]

theorem byteAt_eq_rest {i : Nat} (there : given + i < source.reach) :
    byteAt source.data (given + i) = ((source.rest given)[i]?.getD 0).toNat := by
  have size := source.reach_le
  rw [byteAt, rest, List.getElem?_drop, List.getElem?_take_of_lt there, Array.getElem?_toList,
    getElem?_pos source.data _ (by omega),
    getElem?_pos source.data.data _ (by rw [ByteArray.size_data]; omega)]
  rfl

theorem wordAt_eq_littleEndian (there : given + 4 ≤ source.reach) :
    wordAt source.data given = littleEndian ((source.rest given).take 4) := by
  have first : byteAt source.data (given + 0) = _ := source.byteAt_eq_rest (by omega)
  rw [Nat.add_zero] at first
  rw [wordAt, first, byteAt_eq_rest (by omega), byteAt_eq_rest (by omega),
    byteAt_eq_rest (by omega)]
  have long : 4 ≤ (source.rest given).length := by
    rw [length_rest]
    omega
  match source.rest given, long with
  | a :: b :: c :: d :: rest, _ =>
    simp [littleEndian]
    omega

theorem extract_eq_rest {length : Nat} (there : given + length ≤ source.reach) :
    source.data.extract given (given + length) = ((source.rest given).take length).toByteArray := by
  apply ByteArray.ext
  apply Array.toList_inj.mp
  rw [ByteArray.data_extract, Array.toList_extract, List.data_toByteArray, rest,
    List.extract_eq_drop_take', List.drop_take, List.drop_take, List.take_take,
    Nat.add_sub_cancel_left, Nat.min_eq_left (by omega)]

end Source

section
variable {α : Type} [Framed α] {source : Source} {mode : Mode} {given : Nat}

theorem readFrame_eq (started : given ≤ source.reach) :
    readFrame (α := α) source mode given =
      if (source.rest given).length < 4 then
        (.stopped mode .length (source.ending mode), source.reach)
      else
        let length := littleEndian ((source.rest given).take 4)
        if maxBody < length then (.failure (.link (.oversized length)), given + 4)
        else if (source.rest given).length < 4 + length then
          (.stopped mode .body (source.ending mode), source.reach)
        else (.ofBody (((source.rest given).drop 4).take length), given + (4 + length)) := by
  rw [Source.length_rest, readFrame, Source.readAll_eq started]
  by_cases word : given + 4 ≤ source.reach
  · rw [if_pos word, if_neg (by omega), ← Source.wordAt_eq_littleEndian word]
    dsimp only
    split
    · rfl
    rw [Source.readAll_eq word]
    by_cases body : given + 4 + wordAt source.data given ≤ source.reach
    · rw [if_pos body, if_neg (by omega)]
      dsimp only
      rw [Source.extract_eq_rest body, ← Source.rest_add, Item.ofBody, Nat.add_assoc]
      split <;> simp only [*]
    · rw [if_neg body, if_pos (by omega)]
      cases mode <;> cases source.ending _ <;> rfl
  · rw [if_neg word, if_pos (by omega)]
    cases mode <;> cases source.ending _ <;> rfl

/-! ## Many reads -/

theorem reads_drained (count : Nat) : reads (α := α) source mode count source.reach =
    List.replicate count (.stopped mode .length (source.ending mode), 0) := by
  induction count with
  | zero => rfl
  | succ count ih =>
    rw [reads, readFrame_eq (Nat.le_refl _), Source.rest_reach, if_pos (by decide)]
    dsimp only
    rw [ih, Nat.sub_self, List.replicate_succ]

omit [Framed α] in
theorem Division.results_push (division : Division α) (frame : Item α × Nat) (fault : ReadFault)
    (count : Nat) :
    (division.push frame).results mode fault (count + 1) =
      frame :: division.results mode fault count := by
  rw [results, results, push, List.cons_append, List.take_succ_cons, List.replicate_succ',
    ← List.cons_append, ← List.append_assoc, List.take_append_of_le_length]
  simp
  omega

omit [Framed α] in
theorem Division.results_stopped (part : FramePart) (left : Nat) (fault : ReadFault) (count : Nat) :
    Division.results (α := α) ⟨[], part, left⟩ mode fault (count + 1) =
      (.stopped mode part fault, left) :: List.replicate count (.stopped mode .length fault, 0) := by
  rw [results, List.nil_append, List.take_succ_cons, List.take_replicate,
    Nat.min_eq_left (Nat.le_succ count)]

theorem reads_eq (started : given ≤ source.reach) (count : Nat) :
    reads (α := α) source mode count given =
      (divide (source.rest given)).results mode (source.ending mode) count := by
  induction count generalizing given with
  | zero => rfl
  | succ count ih =>
    have length := source.length_rest given
    simp only [reads, readFrame_eq started]
    by_cases short : (source.rest given).length < 4
    · rw [divide_short short, if_pos short, Division.results_stopped, length]
      exact congrArg _ (reads_drained count)
    rw [if_neg short]
    by_cases oversized : maxBody < littleEndian ((source.rest given).take 4)
    · rw [divide_oversized short oversized, if_pos oversized, Division.results_push,
        ih (by omega), Source.rest_add, Nat.add_sub_cancel_left]
    rw [if_neg oversized]
    by_cases cut : (source.rest given).length < 4 + littleEndian ((source.rest given).take 4)
    · rw [divide_cut short oversized cut, if_pos cut, Division.results_stopped, length]
      exact congrArg _ (reads_drained count)
    · rw [divide_whole short oversized cut, if_neg cut, Division.results_push,
        ih (by omega), Source.rest_add, Nat.add_sub_cancel_left]

/-! ## Faults -/

theorem divide_take (bytes : List UInt8) (limit : Nat) :
    (divide (α := α) (bytes.take limit)).frames = within limit (divide bytes).frames := by
  have sized : ∀ (bytes : List UInt8) limit, (bytes.take limit).length = min limit bytes.length :=
    fun _ _ => List.length_take
  -- Without a whole length there is no frame in the cut stream, and none that ends within it.
  have early : ∀ (bytes : List UInt8) limit, limit < 4 →
      (divide (α := α) (bytes.take limit)).frames = [] := by
    intro bytes limit before
    rw [divide_short (by rw [sized]; omega)]
  have word : ∀ (bytes : List UInt8) limit, 4 ≤ limit →
      (bytes.take limit).take 4 = bytes.take 4 := by
    intro bytes limit late
    rw [List.take_take, Nat.min_eq_left late]
  induction bytes using divide.induct generalizing limit with
  | case1 bytes short =>
    rw [divide_short short, divide_short (by rw [sized]; omega)]
    rfl
  | case2 bytes long length oversized ih =>
    rw [divide_oversized long oversized, Division.push, within]
    split
    · rename_i late
      rw [divide_oversized (by rw [sized]; omega) (by rwa [word _ _ late]), word _ _ late,
        Division.push, List.drop_take, ih]
    · exact early _ _ (by omega)
  | case3 bytes long length bounded cut =>
    rw [divide_cut long bounded cut, within]
    rcases Nat.lt_or_ge limit 4 with before | late
    · exact early _ _ before
    · rw [divide_cut (by rw [sized]; omega) (by rwa [word _ _ late])
        (by rw [word _ _ late, sized]; omega)]
  | case4 bytes long length bounded whole ih =>
    rw [divide_whole long bounded whole, Division.push, within]
    split
    · rename_i late
      have later : 4 ≤ limit := by omega
      rw [divide_whole (by rw [sized]; omega) (by rwa [word _ _ later])
        (by rw [word _ _ later, sized]; omega), word _ _ later, Division.push, List.drop_take,
        List.drop_take, List.take_take, ih, Nat.min_eq_left (by omega)]
    · rename_i beyond
      rcases Nat.lt_or_ge limit 4 with before | late
      · exact early _ _ before
      · rw [divide_cut (by rw [sized]; omega) (by rwa [word _ _ late])
          (by rw [word _ _ late, sized]; omega)]

theorem divide_length (bytes : List UInt8) :
    (sizes (divide (α := α) bytes).frames).sum + (divide (α := α) bytes).left = bytes.length := by
  induction bytes using divide.induct with
  | case1 bytes short =>
    rw [divide_short short]
    exact Nat.zero_add _
  | case2 bytes long length oversized ih =>
    rw [List.length_drop] at ih
    rw [divide_oversized long oversized]
    simp only [Division.push, sizes, List.map_cons, List.sum_cons] at ih ⊢
    omega
  | case3 bytes long length bounded cut =>
    rw [divide_cut long bounded cut]
    exact Nat.zero_add _
  | case4 bytes long length bounded whole ih =>
    rw [List.length_drop] at ih
    rw [divide_whole long bounded whole]
    simp only [length] at ih
    simp only [Division.push, sizes, List.map_cons, List.sum_cons] at ih ⊢
    omega

theorem size_of_frame (bytes : List UInt8) :
    ∀ frame ∈ (divide (α := α) bytes).frames, 4 ≤ frame.2 := by
  induction bytes using divide.induct with
  | case1 bytes short => simp [divide_short short]
  | case2 bytes long length oversized ih =>
    rw [divide_oversized long oversized]
    exact List.forall_mem_cons.mpr ⟨Nat.le_refl 4, ih⟩
  | case3 bytes long length bounded cut => simp [divide_cut long bounded cut]
  | case4 bytes long length bounded whole ih =>
    rw [divide_whole long bounded whole]
    exact List.forall_mem_cons.mpr ⟨Nat.le_add_right .., ih⟩

theorem length_frames_le (bytes : List UInt8) :
    4 * (divide (α := α) bytes).frames.length ≤ bytes.length := by
  have total := divide_length (α := α) bytes
  have least := List.card_nsmul_le_sum (sizes (divide (α := α) bytes).frames) 4
    (by simpa [sizes] using fun size item => size_of_frame bytes (item, size))
  rw [sizes, List.length_map, smul_eq_mul] at least
  rw [sizes] at total
  omega

omit [Framed α] in
theorem within_prefix (limit : Nat) (frames : List (Item α × Nat)) :
    within limit frames <+: frames ∧ (sizes (within limit frames)).sum ≤ limit := by
  induction frames generalizing limit with
  | nil => exact ⟨List.prefix_refl _, Nat.zero_le _⟩
  | cons frame rest ih =>
    obtain ⟨item, size⟩ := frame
    rw [within]
    split
    · obtain ⟨first, small⟩ := ih (limit - size)
      refine ⟨List.prefix_cons_inj _ |>.mpr first, ?_⟩
      simp only [sizes, List.map_cons, List.sum_cons] at small ⊢
      omega
    · exact ⟨List.nil_prefix, Nat.zero_le _⟩

omit [Framed α] in
theorem sizes_take_le (frames : List (Item α × Nat)) (count : Nat) :
    (sizes (frames.take count)).sum ≤ (sizes frames).sum := by
  have split : (sizes (frames.take count ++ frames.drop count)).sum = (sizes frames).sum := by
    rw [List.take_append_drop]
  rw [sizes, List.map_append, List.sum_append] at split
  exact split ▸ Nat.le_add_right ..

omit [Framed α] in
theorem Division.message_of_results {division : Division α} {fault : ReadFault}
    {count n size : Nat} {value : α}
    (found : (division.results mode fault count)[n]? = some (.message value, size)) :
    division.frames[n]? = some (.message value, size) := by
  have stops : ∀ part, Item.stopped (α := α) mode part fault ≠ .message value := by
    intro part
    cases mode <;> cases part <;> cases fault <;> simp [Item.stopped]
  rw [results, List.getElem?_take] at found
  split at found
  · rw [List.getElem?_append] at found
    split at found
    · exact found
    · rcases List.mem_cons.mp (List.mem_of_getElem? found) with last | later
      · exact absurd (congrArg Prod.fst last).symm (stops _)
      · exact absurd (congrArg Prod.fst (List.eq_of_mem_replicate later)).symm (stops _)
  · cases found

theorem readFrame_stop (mode : Mode) (started : given ≤ source.reach) :
    given ≤ (readFrame (α := α) source mode given).2 ∧
      (readFrame (α := α) source mode given).2 ≤ source.reach := by
  have length := source.length_rest given
  rw [readFrame_eq started]
  dsimp only
  split
  · exact ⟨started, Nat.le_refl _⟩
  split
  · dsimp only
    omega
  split
  · exact ⟨started, Nat.le_refl _⟩
  · dsimp only
    omega

theorem readEach_eq (started : given ≤ source.reach) (count : Nat) :
    readEach (α := α) source mode count given =
      ((leading (reads source mode count given)).map Prod.fst,
        given + (sizes (leading (reads (α := α) source mode count given))).sum) := by
  induction count generalizing given with
  | zero => rfl
  | succ count ih =>
    obtain ⟨onward, within⟩ := readFrame_stop (α := α) mode started
    rw [readEach, reads]
    generalize readFrame (α := α) source mode given = read at onward within ⊢
    obtain ⟨item, stop⟩ := read
    dsimp only at onward within ⊢
    rw [ih within, leading]
    split <;> simp only [sizes, List.map_cons, List.sum_cons, List.map_nil, List.sum_nil,
      Prod.mk.injEq, true_and] <;> omega

/-! ## Streams -/

structure Faithful (α : Type) [Framed α] (data : ByteArray) (pace : Nat → Nat) (mode : Mode) :
    Prop where
  whole : ∀ count, reads (α := α) ⟨data, pace, none⟩ mode count 0 =
    (divide data.data.toList).results mode (Source.drained mode) count
  total : (sizes (divide (α := α) data.data.toList).frames).sum +
    (divide (α := α) data.data.toList).left = data.size
  faulty : ∀ limit fault, limit ≤ data.size →
    (∀ count, reads (α := α) ⟨data, pace, some (limit, fault)⟩ mode count 0 =
      (divide (data.data.toList.take limit)).results mode fault count) ∧
    (divide (α := α) (data.data.toList.take limit)).frames =
      within limit (divide data.data.toList).frames
  unreached : ∀ limit fault, data.size < limit → ∀ count,
    reads (α := α) ⟨data, pace, some (limit, fault)⟩ mode count 0 =
      reads ⟨data, pace, none⟩ mode count 0
  untorn : ∀ limit fault count (n size : Nat) (value : α),
    (reads ⟨data, pace, some (limit, fault)⟩ mode count 0)[n]? = some (.message value, size) →
    (divide data.data.toList).frames[n]? = some (.message value, size) ∧
      (sizes ((divide (α := α) data.data.toList).frames.take (n + 1))).sum ≤ limit
  each : ∀ fault count, readEach (α := α) ⟨data, pace, fault⟩ mode count 0 =
    ((leading (reads ⟨data, pace, fault⟩ mode count 0)).map Prod.fst,
      (sizes (leading (reads (α := α) ⟨data, pace, fault⟩ mode count 0))).sum)

/-- Whatever the bytes and the pieces in which they come: each read takes exactly one frame of them
and says what is in it, until the stream stops within a frame. -/
theorem streams_read_exactly (α : Type) [Framed α] (data : ByteArray) (pace : Nat → Nat)
    (mode : Mode) : Faithful α data pace mode := by
  have all : ∀ limit, data.size ≤ limit → data.data.toList.take limit = data.data.toList := by
    intro limit long
    exact List.take_of_length_le (by simpa using long)
  have read : ∀ fault count, reads (α := α) ⟨data, pace, fault⟩ mode count 0 =
      (divide (data.data.toList.take (Source.reach ⟨data, pace, fault⟩))).results mode
        (Source.ending ⟨data, pace, fault⟩ mode) count :=
    fun fault count => reads_eq (Nat.zero_le _) count
  have faulty : ∀ limit fault, limit ≤ data.size → ∀ count,
      reads (α := α) ⟨data, pace, some (limit, fault)⟩ mode count 0 =
        (divide (data.data.toList.take limit)).results mode fault count := by
    intro limit fault reached count
    rw [read, Source.ending, Source.reach]
    simp only [Nat.min_eq_left reached, if_pos reached]
  have whole : ∀ count, reads (α := α) ⟨data, pace, none⟩ mode count 0 =
      (divide data.data.toList).results mode (Source.drained mode) count := by
    intro count
    rw [read]
    exact congrArg (fun bytes => (divide bytes).results mode (Source.drained mode) count)
      (all _ (Nat.le_refl _))
  have unreached : ∀ limit fault, data.size < limit → ∀ count,
      reads (α := α) ⟨data, pace, some (limit, fault)⟩ mode count 0 =
        reads ⟨data, pace, none⟩ mode count 0 := by
    intro limit fault beyond count
    rw [whole, read, Source.ending, Source.reach]
    simp only [Nat.min_eq_right (Nat.le_of_lt beyond), if_neg (Nat.not_le.mpr beyond),
      all data.size (Nat.le_refl _)]
  have total := divide_length (α := α) data.data.toList
  rw [Array.length_toList, ByteArray.size_data] at total
  refine ⟨whole, total, fun limit fault reached => ⟨faulty limit fault reached, divide_take _ _⟩,
    unreached, ?_, ?_⟩
  · intro limit fault count n size value found
    rcases Nat.lt_or_ge data.size limit with beyond | reached
    · rw [unreached limit fault beyond, whole] at found
      refine ⟨Division.message_of_results found, ?_⟩
      have part := sizes_take_le (divide (α := α) data.data.toList).frames (n + 1)
      omega
    · rw [faulty limit fault reached] at found
      have kept := Division.message_of_results found
      rw [divide_take] at kept
      obtain ⟨⟨rest, split⟩, small⟩ :=
        within_prefix limit (divide (α := α) data.data.toList).frames
      have early : n + 1 ≤ _ := (List.getElem?_eq_some_iff.mp kept).choose
      have part := sizes_take_le (within limit (divide (α := α) data.data.toList).frames) (n + 1)
      rw [← split, List.getElem?_append_left early, List.take_append_of_le_length early]
      exact ⟨kept, by omega⟩
  · intro fault count
    rw [readEach_eq (Nat.zero_le _), Nat.zero_add]

end

end Sandbox.Frame

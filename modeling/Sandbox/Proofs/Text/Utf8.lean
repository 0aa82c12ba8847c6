import Sandbox.Proofs.Frame.Canonical
import Sandbox.Text.Utf8

namespace Sandbox.Text.Utf8

/-! ## Sequences -/

inductive Tail : UInt8 → UInt8 → Nat → List UInt8 → Prop
  | done {low high : UInt8} : Tail low high 0 []
  | next {low high b : UInt8} {count : Nat} {rest : List UInt8} (least : low ≤ b)
    (most : b ≤ high) :
    Tail 0x80 0xbf count rest → Tail low high (count + 1) (b :: rest)

def payload (value : Nat) (tail : List UInt8) : Nat :=
  tail.foldl (fun value b => value * 64 + b.toNat % 64) value

theorem followers?_toNat (lead : UInt8) : followers? lead =
    if lead.toNat < 0x80 then some (0x80, 0xbf, 0)
    else if lead.toNat < 0xc2 then none
    else if lead.toNat < 0xe0 then some (0x80, 0xbf, 1)
    else if lead.toNat = 0xe0 then some (0xa0, 0xbf, 2)
    else if lead.toNat = 0xed then some (0x80, 0x9f, 2)
    else if lead.toNat < 0xf0 then some (0x80, 0xbf, 2)
    else if lead.toNat = 0xf0 then some (0x90, 0xbf, 3)
    else if lead.toNat < 0xf4 then some (0x80, 0xbf, 3)
    else if lead.toNat = 0xf4 then some (0x80, 0x8f, 3)
    else none := by
  simp only [followers?, UInt8.lt_iff_toNat_lt, ← UInt8.toNat_inj]
  rfl

/-- The lead bytes, with what is right behind them. Those of the first, the surrogates' and the last
sequences leave out what would be too short, no character, or too far up. -/
inductive Lead (lead : UInt8) : UInt8 → UInt8 → Nat → Prop
  | one (most : lead.toNat < 0x80) : Lead lead 0x80 0xbf 0
  | two (least : 0xc2 ≤ lead.toNat) (most : lead.toNat < 0xe0) : Lead lead 0x80 0xbf 1
  | three (least : 0xe0 < lead.toNat) (most : lead.toNat < 0xf0) (other : lead.toNat ≠ 0xed) :
    Lead lead 0x80 0xbf 2
  | firstThree (same : lead.toNat = 0xe0) : Lead lead 0xa0 0xbf 2
  | surrogates (same : lead.toNat = 0xed) : Lead lead 0x80 0x9f 2
  | four (least : 0xf0 < lead.toNat) (most : lead.toNat < 0xf4) : Lead lead 0x80 0xbf 3
  | firstFour (same : lead.toNat = 0xf0) : Lead lead 0x90 0xbf 3
  | lastFour (same : lead.toNat = 0xf4) : Lead lead 0x80 0x8f 3

theorem lead_of_followers? {lead low high : UInt8} {count : Nat}
    (known : followers? lead = some (low, high, count)) : Lead lead low high count := by
  rw [followers?_toNat] at known
  by_cases one : lead.toNat < 0x80
  · cases (if_pos one).symm.trans known
    exact .one one
  rw [if_neg one] at known
  by_cases none : lead.toNat < 0xc2
  · cases (if_pos none).symm.trans known
  rw [if_neg none] at known
  by_cases two : lead.toNat < 0xe0
  · cases (if_pos two).symm.trans known
    exact .two (Nat.le_of_not_lt none) two
  rw [if_neg two] at known
  by_cases firstThree : lead.toNat = 0xe0
  · cases (if_pos firstThree).symm.trans known
    exact .firstThree firstThree
  rw [if_neg firstThree] at known
  by_cases surrogates : lead.toNat = 0xed
  · cases (if_pos surrogates).symm.trans known
    exact .surrogates surrogates
  rw [if_neg surrogates] at known
  by_cases three : lead.toNat < 0xf0
  · cases (if_pos three).symm.trans known
    exact .three (by omega) three surrogates
  rw [if_neg three] at known
  by_cases firstFour : lead.toNat = 0xf0
  · cases (if_pos firstFour).symm.trans known
    exact .firstFour firstFour
  rw [if_neg firstFour] at known
  by_cases four : lead.toNat < 0xf4
  · cases (if_pos four).symm.trans known
    exact .four (by omega) four
  rw [if_neg four] at known
  by_cases lastFour : lead.toNat = 0xf4
  · cases (if_pos lastFour).symm.trans known
    exact .lastFour lastFour
  · cases (if_neg lastFour).symm.trans known

theorem Tail.ofNat {low high : UInt8} {n count : Nat} {rest : List UInt8} (least : low.toNat ≤ n)
    (most : n ≤ high.toNat) (tail : Tail 0x80 0xbf count rest) :
    Tail low high (count + 1) (UInt8.ofNat n :: rest) := by
  have small : (UInt8.ofNat n).toNat = n := by
    rw [UInt8.toNat_ofNat']
    exact Nat.mod_eq_of_lt (Nat.lt_of_le_of_lt most high.toNat_lt)
  refine .next ?_ ?_ tail
  · rwa [UInt8.le_iff_toNat_le, small]
  · rwa [UInt8.le_iff_toNat_le, small]

theorem encode_sequence (c : Char) : ∃ lead tail low high count,
    String.utf8EncodeChar c = lead :: tail ∧ followers? lead = some (low, high, count) ∧
      Tail low high count tail := by
  have valid : c.val.toNat < 0xd800 ∨ 0xdfff < c.val.toNat ∧ c.val.toNat < 0x110000 := c.valid
  have within (n : Nat) : 128 ≤ n % 64 + 128 ∧ n % 64 + 128 ≤ 191 := by omega
  dsimp only [String.utf8EncodeChar]
  generalize c.val.toNat = v at valid
  split
  · refine ⟨_, _, 0x80, 0xbf, 0, rfl, ?_, .done⟩
    simp only [followers?_toNat, UInt8.toNat_ofNat']
    grind
  split
  · refine ⟨_, _, 0x80, 0xbf, 1, rfl, ?_, .ofNat (within _).1 (within _).2 .done⟩
    simp only [followers?_toNat, UInt8.toNat_ofNat']
    grind
  split
  · -- The first and the last lead byte of three leave out what would be too short or a surrogate.
    have last : Tail 0x80 0xbf 1 [UInt8.ofNat (v % 64 + 128)] :=
      .ofNat (within v).1 (within v).2 .done
    rcases Nat.eq_zero_or_pos (v / 4096) with zero | positive
    · refine ⟨_, _, 0xa0, 0xbf, 2, rfl, ?_, .ofNat ?_ (within _).2 last⟩
      · rw [zero]
        rfl
      · change 160 ≤ _
        omega
    · by_cases edge : v / 4096 = 13
      · refine ⟨_, _, 0x80, 0x9f, 2, rfl, ?_, .ofNat (within _).1 ?_ last⟩
        · rw [edge]
          rfl
        · change _ ≤ 159
          omega
      · refine ⟨_, _, 0x80, 0xbf, 2, rfl, ?_, .ofNat (within _).1 (within _).2 last⟩
        simp only [followers?_toNat, UInt8.toNat_ofNat']
        grind
  · have last : Tail 0x80 0xbf 2 [UInt8.ofNat (v / 64 % 64 + 128), UInt8.ofNat (v % 64 + 128)] :=
      .ofNat (within (v / 64)).1 (within (v / 64)).2 (.ofNat (within v).1 (within v).2 .done)
    rcases Nat.eq_zero_or_pos (v / 262144) with zero | positive
    · refine ⟨_, _, 0x90, 0xbf, 3, rfl, ?_, .ofNat ?_ (within _).2 last⟩
      · rw [zero]
        rfl
      · change 144 ≤ _
        omega
    · by_cases edge : v / 262144 = 4
      · refine ⟨_, _, 0x80, 0x8f, 3, rfl, ?_, .ofNat (within _).1 ?_ last⟩
        · rw [edge]
          rfl
        · change _ ≤ 143
          omega
      · refine ⟨_, _, 0x80, 0xbf, 3, rfl, ?_, .ofNat (within _).1 (within _).2 last⟩
        simp only [followers?_toNat, UInt8.toNat_ofNat']
        grind

theorem Tail.of_succ {low high : UInt8} {count : Nat} {tail : List UInt8}
    (follows : Tail low high (count + 1) tail) : ∃ b rest, tail = b :: rest ∧
      low.toNat ≤ b.toNat ∧ b.toNat ≤ high.toNat ∧ Tail 0x80 0xbf count rest := by
  cases follows with
  | next least most follows =>
    exact ⟨_, _, rfl, UInt8.le_iff_toNat_le.mp least, UInt8.le_iff_toNat_le.mp most, follows⟩

theorem toNat_val_ofNat {v : Nat} (valid : v < 0xd800 ∨ 0xdfff < v ∧ v < 0x110000) :
    (Char.ofNat v).val.toNat = v := by
  rw [Char.ofNat, dif_pos valid]
  rfl

private theorem ofNat_eq {n : Nat} {b : UInt8} (same : n = b.toNat) : UInt8.ofNat n = b := by
  rw [same, UInt8.ofNat_toNat]

theorem encode_one {a : UInt8} (least : a.toNat < 0x80) :
    String.utf8EncodeChar (Char.ofNat a.toNat) = [a] := by
  simp only [String.utf8EncodeChar]
  rw [toNat_val_ofNat (by omega), if_pos (by omega), ofNat_eq rfl]

theorem encode_two {a b : UInt8} (lead : 0xc2 ≤ a.toNat ∧ a.toNat < 0xe0)
    (next : 0x80 ≤ b.toNat ∧ b.toNat ≤ 0xbf) :
    String.utf8EncodeChar (Char.ofNat (a.toNat % 0x20 * 64 + b.toNat % 64)) = [a, b] := by
  simp only [String.utf8EncodeChar]
  rw [toNat_val_ofNat (by omega), if_neg (by omega), if_pos (by omega),
    ofNat_eq (b := a) (by omega), ofNat_eq (b := b) (by omega)]

theorem encode_three {a b c : UInt8} (lead : 0xe0 ≤ a.toNat ∧ a.toNat < 0xf0)
    (next : 0x80 ≤ b.toNat ∧ b.toNat ≤ 0xbf) (last : 0x80 ≤ c.toNat ∧ c.toNat ≤ 0xbf)
    (long : a.toNat = 0xe0 → 0xa0 ≤ b.toNat) (scalar : a.toNat = 0xed → b.toNat ≤ 0x9f) :
    String.utf8EncodeChar
      (Char.ofNat ((a.toNat % 0x10 * 64 + b.toNat % 64) * 64 + c.toNat % 64)) = [a, b, c] := by
  simp only [String.utf8EncodeChar]
  rw [toNat_val_ofNat (by omega), if_neg (by omega), if_neg (by omega), if_pos (by omega),
    ofNat_eq (b := a) (by omega), ofNat_eq (b := b) (by omega), ofNat_eq (b := c) (by omega)]

theorem encode_four {a b c d : UInt8} (lead : 0xf0 ≤ a.toNat ∧ a.toNat ≤ 0xf4)
    (next : 0x80 ≤ b.toNat ∧ b.toNat ≤ 0xbf) (third : 0x80 ≤ c.toNat ∧ c.toNat ≤ 0xbf)
    (last : 0x80 ≤ d.toNat ∧ d.toNat ≤ 0xbf) (long : a.toNat = 0xf0 → 0x90 ≤ b.toNat)
    (scalar : a.toNat = 0xf4 → b.toNat ≤ 0x8f) :
    String.utf8EncodeChar (Char.ofNat
      (((a.toNat % 0x08 * 64 + b.toNat % 64) * 64 + c.toNat % 64) * 64 + d.toNat % 64)) =
        [a, b, c, d] := by
  simp only [String.utf8EncodeChar]
  rw [toNat_val_ofNat (by omega), if_neg (by omega), if_neg (by omega), if_neg (by omega),
    ofNat_eq (b := a) (by omega), ofNat_eq (b := b) (by omega), ofNat_eq (b := c) (by omega),
    ofNat_eq (b := d) (by omega)]

private theorem Tail.of_two {low high : UInt8} {tail : List UInt8}
    (follows : Tail low high 2 tail) : ∃ b c, tail = [b, c] ∧
      low.toNat ≤ b.toNat ∧ b.toNat ≤ high.toNat ∧ 0x80 ≤ c.toNat ∧ c.toNat ≤ 0xbf := by
  obtain ⟨b, rest, rfl, least, most, follows⟩ := follows.of_succ
  obtain ⟨c, rest, rfl, least', most', follows⟩ := follows.of_succ
  cases follows
  exact ⟨b, c, rfl, least, most, least', most'⟩

private theorem Tail.of_three {low high : UInt8} {tail : List UInt8}
    (follows : Tail low high 3 tail) : ∃ b c d, tail = [b, c, d] ∧
      low.toNat ≤ b.toNat ∧ b.toNat ≤ high.toNat ∧ (0x80 ≤ c.toNat ∧ c.toNat ≤ 0xbf) ∧
      0x80 ≤ d.toNat ∧ d.toNat ≤ 0xbf := by
  obtain ⟨b, rest, rfl, least, most, follows⟩ := follows.of_succ
  obtain ⟨c, d, rfl, next, last⟩ := follows.of_two
  exact ⟨b, c, d, rfl, least, most, ⟨next, last.1⟩, last.2⟩

theorem encode_payload {lead low high : UInt8} {count : Nat} {tail : List UInt8}
    (known : followers? lead = some (low, high, count)) (follows : Tail low high count tail) :
    String.utf8EncodeChar (Char.ofNat (payload (leadBits lead count) tail)) = lead :: tail := by
  cases lead_of_followers? known with
  | one most =>
    cases follows
    exact encode_one most
  | two bound most' =>
    obtain ⟨b, rest, rfl, least, most, follows⟩ := follows.of_succ
    cases follows
    exact encode_two ⟨bound, most'⟩ ⟨least, most⟩
  | three bound most' other =>
    obtain ⟨b, c, rfl, least, most, last⟩ := follows.of_two
    exact encode_three ⟨bound.le, most'⟩ ⟨least, most⟩ last (by omega) (by omega)
  | firstThree same =>
    obtain ⟨b, c, rfl, least, most, last⟩ := follows.of_two
    replace least : 0xa0 ≤ b.toNat := least
    exact encode_three (by omega) ⟨by omega, most⟩ last (by omega) (by omega)
  | surrogates same =>
    obtain ⟨b, c, rfl, least, most, last⟩ := follows.of_two
    replace most : b.toNat ≤ 0x9f := most
    exact encode_three (by omega) ⟨least, by omega⟩ last (by omega) (by omega)
  | four bound most' =>
    obtain ⟨b, c, d, rfl, least, most, third, last⟩ := follows.of_three
    exact encode_four ⟨bound.le, most'.le⟩ ⟨least, most⟩ third last (by omega) (by omega)
  | firstFour same =>
    obtain ⟨b, c, d, rfl, least, most, third, last⟩ := follows.of_three
    replace least : 0x90 ≤ b.toNat := least
    exact encode_four (by omega) ⟨by omega, most⟩ third last (by omega) (by omega)
  | lastFour same =>
    obtain ⟨b, c, d, rfl, least, most, third, last⟩ := follows.of_three
    replace most : b.toNat ≤ 0x8f := most
    exact encode_four (by omega) ⟨least, by omega⟩ third last (by omega) (by omega)

/-! ## Following a lead byte -/

inductive Followed (low high : UInt8) (count value : Nat) : List UInt8 → Char × List UInt8 → Prop
  | whole {tail rest : List UInt8} (follows : Tail low high count tail) :
    Followed low high count value (tail ++ rest) (Char.ofNat (payload value tail), rest)
  | broken {part missing rest : List UInt8} (begins : Tail low high count (part ++ missing))
    (short : missing ≠ [])
    (stops : ∀ b more, rest = b :: more → ∀ others, ¬Tail low high count (part ++ b :: others)) :
    Followed low high count value (part ++ rest) (replacement, rest)

theorem tail_exists {low high : UInt8} (some_byte : low ≤ high) (count : Nat) :
    ∃ tail, Tail low high count tail := by
  induction count generalizing low high with
  | zero => exact ⟨[], .done⟩
  | succ count ih =>
    obtain ⟨rest, follows⟩ := ih (show 0x80 ≤ 0xbf by decide)
    exact ⟨low :: rest, .next (UInt8.le_refl _) some_byte follows⟩

theorem follow_followed {low high : UInt8} (some_byte : low ≤ high) (count value : Nat)
    (bytes : List UInt8) :
    Followed low high count value bytes (follow low high count value bytes) := by
  induction count generalizing low high value bytes with
  | zero =>
    rw [follow]
    exact @Followed.whole low high 0 value [] bytes .done
  | succ count ih =>
    obtain ⟨missing, begins⟩ := tail_exists some_byte (count + 1)
    have short : missing ≠ [] := by
      rintro rfl
      cases begins
    cases bytes with
    | nil =>
      rw [follow]
      exact @Followed.broken low high _ value [] missing [] begins short (by simp)
    | cons b rest =>
      rw [follow]
      split
      · rename_i inside
        have followed := ih (show 0x80 ≤ 0xbf by decide) (value * 64 + b.toNat % 64) rest
        revert followed
        generalize follow 0x80 0xbf count (value * 64 + b.toNat % 64) rest = result
        intro followed
        cases followed with
        | whole follows => exact .whole (.next inside.1 inside.2 follows)
        | broken begins short stops =>
          refine @Followed.broken _ _ _ _ (b :: _) _ _ (.next inside.1 inside.2 begins) short ?_
          intro b' more same others follows
          cases follows with
          | next least most follows => exact stops b' more same others follows
      · rename_i outside
        refine @Followed.broken low high _ value [] missing _ begins short ?_
        rintro b' more same others follows
        cases same
        cases follows with
        | next least most follows => exact outside ⟨least, most⟩

/-! ## Reading -/

/-- The first bytes begin no character, or break off one that they begin, and there are no more of
them than that takes. -/
structure IllFormed (part rest : List UInt8) : Prop where
  begins : part.length = 1 ∨ ∃ c, part <+: String.utf8EncodeChar c
  nonempty : part ≠ []
  unreadable : ∀ c, ¬String.utf8EncodeChar c <+: part ++ rest
  longest : ∀ b more, rest = b :: more → ∀ c, ¬part ++ [b] <+: String.utf8EncodeChar c

/-- The text of bytes: each character as it is, and a replacement for each ill-formed part. -/
inductive Reads : List UInt8 → List Char → Prop
  | done : Reads [] []
  | char (c : Char) {bytes : List UInt8} {text : List Char} :
    Reads bytes text → Reads (String.utf8EncodeChar c ++ bytes) (c :: text)
  | replaced {part rest : List UInt8} {text : List Char} (illFormed : IllFormed part rest) :
    Reads rest text → Reads (part ++ rest) (replacement :: text)

theorem tail_of_encode {c : Char} {lead low high : UInt8} {count : Nat} {tail : List UInt8}
    (known : followers? lead = some (low, high, count))
    (encoded : String.utf8EncodeChar c = lead :: tail) : Tail low high count tail := by
  obtain ⟨lead', tail', low', high', count', encoded', known', follows⟩ := encode_sequence c
  obtain ⟨rfl, rfl⟩ := List.cons.inj (encoded.symm.trans encoded')
  cases known.symm.trans known'
  exact follows

theorem Tail.length_eq {low high : UInt8} {count : Nat} {tail : List UInt8}
    (follows : Tail low high count tail) : tail.length = count := by
  induction follows with
  | done => rfl
  | next least most follows ih => rw [List.length_cons, ih]

theorem followers?_bounds {lead low high : UInt8} {count : Nat}
    (known : followers? lead = some (low, high, count)) : low ≤ high := by
  cases lead_of_followers? known <;> decide

theorem illFormed_of_broken {lead low high : UInt8} {count : Nat} {part missing rest : List UInt8}
    (known : followers? lead = some (low, high, count))
    (begins : Tail low high count (part ++ missing)) (short : missing ≠ [])
    (stops : ∀ b more, rest = b :: more → ∀ others, ¬Tail low high count (part ++ b :: others)) :
    IllFormed (lead :: part) rest := by
  constructor
  case begins =>
    refine .inr ⟨Char.ofNat (payload (leadBits lead count) (part ++ missing)), ?_⟩
    rw [encode_payload known begins]
    exact List.prefix_append (lead :: part) missing
  case nonempty => exact List.cons_ne_nil _ _
  case unreadable =>
    intro c first
    obtain ⟨lead', tail, -, -, -, encoded, -, -⟩ := encode_sequence c
    rw [encoded, List.cons_append, List.cons_prefix_cons] at first
    obtain ⟨rfl, first⟩ := first
    have follows := tail_of_encode known encoded
    have longer : part.length < tail.length := by
      rw [follows.length_eq, ← begins.length_eq, List.length_append]
      exact Nat.lt_add_of_pos_right (List.length_pos_iff.mpr short)
    obtain ⟨others, rfl⟩ :=
      List.prefix_of_prefix_length_le (List.prefix_append part rest) first longer.le
    cases others with
    | nil => simp at longer
    | cons b others =>
      obtain ⟨more, same⟩ := (List.prefix_append_right_inj part).mp first
      exact stops b (others ++ more) same.symm others follows
  case longest =>
    rintro b more rfl c longer
    obtain ⟨lead', tail, -, -, -, encoded, -, -⟩ := encode_sequence c
    rw [encoded, List.cons_append, List.cons_prefix_cons] at longer
    obtain ⟨rfl, others, rfl⟩ := longer
    have follows := tail_of_encode known encoded
    rw [List.append_assoc] at follows
    exact stops b more rfl others follows

theorem illFormed_of_stray {lead : UInt8} (stray : followers? lead = none) (rest : List UInt8) :
    IllFormed [lead] rest := by
  have strange (c : Char) (tail : List UInt8) : String.utf8EncodeChar c ≠ lead :: tail := by
    intro encoded
    obtain ⟨lead', tail', low, high, count, encoded', known, -⟩ := encode_sequence c
    obtain ⟨rfl, -⟩ := List.cons.inj (encoded.symm.trans encoded')
    cases stray.symm.trans known
  constructor
  case begins => exact .inl rfl
  case nonempty => exact List.cons_ne_nil _ _
  case unreadable =>
    intro c first
    obtain ⟨lead', tail, -, -, -, encoded, -, -⟩ := encode_sequence c
    rw [encoded, List.cons_append, List.cons_prefix_cons] at first
    obtain ⟨rfl, -⟩ := first
    exact strange c tail encoded
  case longest =>
    rintro b more rfl c ⟨others, encoded⟩
    exact strange c _ encoded.symm

theorem next_reads {lead : UInt8} {rest : List UInt8} {text : List Char}
    (others : Reads (next lead rest).2 text) :
    Reads (lead :: rest) ((next lead rest).1 :: text) := by
  unfold next at others ⊢
  split at others
  · rename_i low high count known
    have followed := follow_followed (followers?_bounds known) count (leadBits lead count) rest
    revert others followed
    generalize follow low high count (leadBits lead count) rest = result
    intro others followed
    cases followed with
    | @whole tail rest follows =>
      have read := Reads.char (Char.ofNat (payload (leadBits lead count) tail)) others
      rwa [encode_payload known follows] at read
    | broken begins short stops =>
      exact .replaced (illFormed_of_broken known begins short stops) others
  · rename_i stray
    exact @Reads.replaced [lead] rest text (illFormed_of_stray stray rest) others

theorem reads_replaced (bytes : List UInt8) : Reads bytes (replaced bytes) := by
  induction bytes using replaced.induct with
  | case1 =>
    rw [replaced]
    exact .done
  | case2 lead rest ih =>
    rw [replaced]
    exact next_reads ih

theorem reads_encoded (text : List Char) : Reads (text.flatMap String.utf8EncodeChar) text := by
  induction text with
  | nil => exact .done
  | cons c text ih => exact .char c ih

/-! ## One reading only -/

theorem encode_append_inj {c c' : Char} {bytes bytes' : List UInt8}
    (same : String.utf8EncodeChar c ++ bytes = String.utf8EncodeChar c' ++ bytes') :
    c = c' ∧ bytes = bytes' := by
  obtain ⟨lead, tail, low, high, count, encoded, known, follows⟩ := encode_sequence c
  obtain ⟨lead', tail', low', high', count', encoded', known', follows'⟩ := encode_sequence c'
  rw [encoded, encoded'] at same
  obtain ⟨rfl, rests⟩ := List.cons.inj same
  cases known.symm.trans known'
  obtain ⟨rfl, behind⟩ := List.append_inj rests (follows.length_eq.trans follows'.length_eq.symm)
  have texts : String.ofList [c] = String.ofList [c'] := by
    apply String.toByteArray_inj.mp
    rw [String.toByteArray_ofList, String.toByteArray_ofList, List.utf8Encode_singleton,
      List.utf8Encode_singleton, encoded, encoded']
  exact ⟨List.singleton_inj.mp (String.ofList_inj.mp texts), behind⟩

theorem IllFormed.length_le {part part' rest rest' : List UInt8} (illFormed : IllFormed part rest)
    (illFormed' : IllFormed part' rest') (same : part ++ rest = part' ++ rest') :
    part'.length ≤ part.length := by
  by_contra longer
  have first : part <+: part' :=
    List.prefix_of_prefix_length_le (List.prefix_append part rest) (same ▸ List.prefix_append _ _)
      (Nat.le_of_not_le longer)
  obtain ⟨others, rfl⟩ := first
  cases others with
  | nil => simp at longer
  | cons b others =>
    rw [List.append_assoc] at same
    have next := List.append_cancel_left same
    rcases illFormed'.begins with alone | ⟨c, begins⟩
    · have := List.length_pos_iff.mpr illFormed.nonempty
      simp at alone
      omega
    · refine illFormed.longest b _ next c (List.IsPrefix.trans ?_ begins)
      exact (List.prefix_append_right_inj part).mpr ⟨others, rfl⟩

theorem Reads.unique {bytes : List UInt8} {text text' : List Char} (reads : Reads bytes text)
    (reads' : Reads bytes text') : text = text' := by
  induction reads generalizing text' with
  | done =>
    generalize empty : [] = bytes at reads'
    cases reads' with
    | done => rfl
    | char c others =>
      exact absurd (List.append_eq_nil_iff.mp empty.symm).1 String.utf8EncodeChar_ne_nil
    | replaced illFormed others =>
      exact absurd (List.append_eq_nil_iff.mp empty.symm).1 illFormed.nonempty
  | @char c bytes text others ih =>
    generalize same : String.utf8EncodeChar c ++ bytes = whole at reads'
    cases reads' with
    | done => exact absurd (List.append_eq_nil_iff.mp same).1 String.utf8EncodeChar_ne_nil
    | char c' others' =>
      obtain ⟨rfl, rfl⟩ := encode_append_inj same
      rw [ih others']
    | replaced illFormed others' => exact absurd ⟨bytes, same⟩ (illFormed.unreadable c)
  | @replaced part rest text illFormed others ih =>
    generalize same : part ++ rest = whole at reads'
    cases reads' with
    | done => exact absurd (List.append_eq_nil_iff.mp same).1 illFormed.nonempty
    | char c others' => exact absurd ⟨_, same.symm⟩ (illFormed.unreadable c)
    | replaced illFormed' others' =>
      have lengths := Nat.le_antisymm (illFormed'.length_le illFormed same.symm)
        (illFormed.length_le illFormed' same)
      obtain ⟨rfl, rfl⟩ := List.append_inj same lengths
      rw [ih others']

/-! ## Buffers -/

theorem toList_eq_data (bytes : ByteArray) : bytes.toList = bytes.data.toList := by
  have loops : ∀ i front, ByteArray.toList.loop bytes i front =
      front.reverse ++ bytes.data.toList.drop i := by
    intro i front
    induction i, front using ByteArray.toList.loop.induct bytes with
    | case1 i front more ih =>
      have here : bytes.get! i = bytes.data.toList[i] :=
        getElem!_pos bytes.data i more
      rw [ByteArray.toList.loop, if_pos more, ih, List.drop_eq_getElem_cons more, here]
      simp
    | case2 i front done =>
      rw [ByteArray.toList.loop, if_neg done, List.drop_eq_nil_of_le (Nat.le_of_not_lt done),
        List.append_nil]
  exact loops 0 []

theorem toList_toUTF8 (text : String) :
    text.toUTF8.data.toList = text.toList.flatMap String.utf8EncodeChar := by
  rw [String.toUTF8_eq_toByteArray, ← String.utf8Encode_toList, List.utf8Encode,
    List.toList_data_toByteArray]

theorem lossy_of_valid (text : String) : lossy text.toUTF8 = text := by
  rw [lossy, Frame.fromUTF8?_toUTF8]

theorem reads_iff_lossy (bytes : ByteArray) (text : List Char) :
    Reads bytes.data.toList text ↔ text = (lossy bytes).toList := by
  have reads : Reads bytes.data.toList (lossy bytes).toList := by
    rw [lossy]
    split
    · rename_i text valid
      rw [← Frame.toUTF8_of_fromUTF8? valid, toList_toUTF8]
      exact reads_encoded _
    · rw [String.toList_ofList, toList_eq_data]
      exact reads_replaced _
  constructor
  · exact fun reads' => reads'.unique reads
  · rintro rfl
    exact reads

end Sandbox.Text.Utf8

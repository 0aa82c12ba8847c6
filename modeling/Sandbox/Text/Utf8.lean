/-!
Bytes read as UTF-8, strictly or with replacement. In the second reading every maximal ill-formed
part becomes one replacement character: a part is the longest piece that still begins some
well-formed sequence, or a single byte that begins none.
-/

namespace Sandbox.Text.Utf8

abbrev replacement : Char := '\ufffd'

/-- The bytes that may follow a lead byte directly, as an interval, and how many follow in all;
`none` where no sequence starts with the byte. -/
def followers? (lead : UInt8) : Option (UInt8 × UInt8 × Nat) :=
  if lead < 0x80 then some (0x80, 0xbf, 0)
  else if lead < 0xc2 then none
  else if lead < 0xe0 then some (0x80, 0xbf, 1)
  else if lead = 0xe0 then some (0xa0, 0xbf, 2)
  else if lead = 0xed then some (0x80, 0x9f, 2)
  else if lead < 0xf0 then some (0x80, 0xbf, 2)
  else if lead = 0xf0 then some (0x90, 0xbf, 3)
  else if lead < 0xf4 then some (0x80, 0xbf, 3)
  else if lead = 0xf4 then some (0x80, 0x8f, 3)
  else none

def leadBits (lead : UInt8) (count : Nat) : Nat :=
  match count with
  | 0 => lead.toNat
  | 1 => lead.toNat % 0x20
  | 2 => lead.toNat % 0x10
  | _ => lead.toNat % 0x08

/-- Takes `count` follower bytes, the first of them between `low` and `high`, behind the payload
`value`. -/
def follow (low high : UInt8) : Nat → Nat → List UInt8 → Char × List UInt8
  | 0, value, rest => (Char.ofNat value, rest)
  | _ + 1, _, [] => (replacement, [])
  | count + 1, value, b :: rest =>
    if low ≤ b ∧ b ≤ high then follow 0x80 0xbf count (value * 64 + b.toNat % 64) rest
    else (replacement, b :: rest)

theorem length_follow (low high : UInt8) (count value : Nat) (bytes : List UInt8) :
    (follow low high count value bytes).2.length ≤ bytes.length := by
  fun_induction follow low high count value bytes <;> grind

def next (lead : UInt8) (rest : List UInt8) : Char × List UInt8 :=
  match followers? lead with
  | some (low, high, count) => follow low high count (leadBits lead count) rest
  | none => (replacement, rest)

theorem length_next (lead : UInt8) (rest : List UInt8) : (next lead rest).2.length ≤ rest.length := by
  unfold next
  split
  · exact length_follow ..
  · exact Nat.le_refl _

def replaced : List UInt8 → List Char
  | [] => []
  | lead :: rest => (next lead rest).1 :: replaced (next lead rest).2
termination_by bytes => bytes.length
decreasing_by exact Nat.lt_succ_of_le (length_next lead rest)

def lossy (bytes : ByteArray) : String :=
  match String.fromUTF8? bytes with
  | some text => text
  | none => String.ofList (replaced bytes.toList)

end Sandbox.Text.Utf8

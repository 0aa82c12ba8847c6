/-!
A body is made of little-endian 32-bit words. A string stands in a cell of eight bytes. Up to eight
bytes lie in the cell itself, padded with `0xff`. A longer one lies before the root: its cell holds
the length, marked by the two top bits of the first byte, and the distance from the cell to the
bytes.
-/

namespace Sandbox.Frame

def wordBytes (n : Nat) : List UInt8 :=
  [UInt8.ofNat n, UInt8.ofNat (n / 256), UInt8.ofNat (n / 65536), UInt8.ofNat (n / 16777216)]

def byteAt (bytes : ByteArray) (position : Nat) : Nat := (bytes[position]?.getD 0).toNat

def wordAt (bytes : ByteArray) (position : Nat) : Nat :=
  byteAt bytes position + 256 * byteAt bytes (position + 1)
    + 65536 * byteAt bytes (position + 2) + 16777216 * byteAt bytes (position + 3)

def signed (word : Nat) : Int := if word < 2147483648 then word else (word : Int) - 4294967296

def offsetWord (origin target : Nat) : Nat := (target + 4294967296 - origin) % 4294967296

namespace Cell

def size : Nat := 8

def isInline (bytes : ByteArray) : Bool := bytes.size ≤ size

/-- The length of an out-of-line string as its cell holds it: six low bits, the mark `0b10`, and
the other bits above. -/
def lengthWord (length : Nat) : Nat := length % 64 + 128 + length / 64 * 256

def wordLength (word : Nat) : Nat := word % 64 + word / 256 * 64

def isOutOfLineMark (first : Nat) : Bool := first / 64 == 2

/-- The cell at `cell` of a string whose bytes, if they lie outside, start at `heap`. -/
def encode (cell heap : Nat) (bytes : ByteArray) : ByteArray :=
  if isInline bytes then bytes ++ (List.replicate (size - bytes.size) 0xff).toByteArray
  else (wordBytes (lengthWord bytes.size) ++ wordBytes (offsetWord cell heap)).toByteArray

def spill (bytes : ByteArray) : ByteArray := if isInline bytes then ByteArray.empty else bytes

def inlineLength (body : ByteArray) (cell : Nat) : Nat :=
  ((List.range size).takeWhile (fun i => byteAt body (cell + i) != 0xff)).length

/-- Where the string of a cell lies, from its first byte to the one after its last, when strings
outside have to lie between `floor` and `root`. -/
def extent? (body : ByteArray) (root floor cell : Nat) : Option (Nat × Nat) :=
  if isOutOfLineMark (byteAt body cell) then
    let length := wordLength (wordAt body cell)
    let start := (cell : Int) + signed (wordAt body (cell + 4))
    if size < length ∧ (floor : Int) ≤ start ∧ start + length ≤ root then
      some (start.toNat, start.toNat + length)
    else none
  else some (cell, cell + inlineLength body cell)

def decode? (body : ByteArray) (root floor cell : Nat) : Option (String × Nat) := do
  let (start, stop) ← extent? body root floor cell
  let text ← String.fromUTF8? (body.extract start stop)
  return (text, if isOutOfLineMark (byteAt body cell) then stop else floor)

end Cell

end Sandbox.Frame

import Sandbox.Failure
import Sandbox.Frame.Cell
import Sandbox.Message

/-!
Frame bodies. The root stands last, on a multiple of four: the id's cell, the tag byte, three
bytes of filling, then a cell for each text of the tag, then filling. Texts that are too long for
their cells come first, in the order of their cells and with nothing between them.

Reading checks everything that it follows: sizes, alignment, the tag, the mark and the extent of
every cell in use, and that the texts are UTF-8. What no cell refers to is ignored.
-/

namespace Sandbox.Frame

def maxBody : Nat := 16777216

structure Record where
  id : String
  tag : Nat
  texts : List String
deriving DecidableEq

/-- The layout of a message type: the size of the root, and how many texts each tag has. -/
structure Layout where
  rootSize : Nat
  texts? : Nat → Option Nat

class Framed (α : Type) where
  layout : Layout
  record : α → Record
  ofRecord? : Record → Option α

instance : Framed Request where
  layout := ⟨20, fun | 0 => some 0 | 1 => some 1 | _ => none⟩
  record
    | ⟨id, .ping⟩ => ⟨id.text, 0, []⟩
    | ⟨id, .run code⟩ => ⟨id.text, 1, [code]⟩
  ofRecord?
    | ⟨id, 0, []⟩ => some ⟨⟨id⟩, .ping⟩
    | ⟨id, 1, [code]⟩ => some ⟨⟨id⟩, .run code⟩
    | _ => none

instance : Framed Response where
  layout := ⟨28, fun | 0 => some 0 | 1 => some 2 | 2 => some 1 | _ => none⟩
  record
    | ⟨id, .ready⟩ => ⟨id.text, 0, []⟩
    | ⟨id, .result stdout stderr⟩ => ⟨id.text, 1, [stdout, stderr]⟩
    | ⟨id, .failure message⟩ => ⟨id.text, 2, [message]⟩
  ofRecord?
    | ⟨id, 0, []⟩ => some ⟨⟨id⟩, .ready⟩
    | ⟨id, 1, [stdout, stderr]⟩ => some ⟨⟨id⟩, .result stdout stderr⟩
    | ⟨id, 2, [message]⟩ => some ⟨⟨id⟩, .failure message⟩
    | _ => none

namespace Body

/-- Where the first text's cell stands in the root, behind the id's cell and the tag. -/
def textsAt : Nat := 12

def padding (length : Nat) : Nat := (4 - length % 4) % 4

def zeros (count : Nat) : ByteArray := (List.replicate count 0).toByteArray

def heap (strings : List ByteArray) : ByteArray :=
  strings.foldl (fun bytes string => bytes ++ Cell.spill string) ByteArray.empty

def heapSize (strings : List ByteArray) : Nat :=
  strings.foldr (fun string length => (Cell.spill string).size + length) 0

/-- Consecutive cells from position `cell` on; outside strings lie from `heap` on. -/
def cells (cell heap : Nat) : List ByteArray → ByteArray
  | [] => ByteArray.empty
  | string :: rest =>
    Cell.encode cell heap string
      ++ cells (cell + Cell.size) (heap + (Cell.spill string).size) rest

def size (layout : Layout) (record : Record) : Nat :=
  let length := heapSize ((record.id :: record.texts).map String.toUTF8)
  length + padding length + layout.rootSize

def encode (layout : Layout) (record : Record) : ByteArray :=
  let id := record.id.toUTF8
  let texts := record.texts.map String.toUTF8
  let front := heap (id :: texts)
  let root := front.size + padding front.size
  front ++ zeros (padding front.size)
    ++ Cell.encode root 0 id
    ++ [UInt8.ofNat record.tag, 0, 0, 0].toByteArray
    ++ cells (root + textsAt) (Cell.spill id).size texts
    ++ zeros (layout.rootSize - textsAt - Cell.size * texts.length)

def decodeTexts? (body : ByteArray) (root : Nat) : Nat → Nat → Nat → Option (List String)
  | 0, _, _ => some []
  | count + 1, cell, floor => do
    let (text, floor) ← Cell.decode? body root floor cell
    return text :: (← decodeTexts? body root count (cell + Cell.size) floor)

def decode? (layout : Layout) (body : ByteArray) : Option Record := do
  let root := body.size - layout.rootSize
  guard (layout.rootSize ≤ body.size ∧ root % 4 = 0)
  let tag := byteAt body (root + Cell.size)
  let count ← layout.texts? tag
  let (id, floor) ← Cell.decode? body root 0 root
  let texts ← decodeTexts? body root count (root + textsAt) floor
  return ⟨id, tag, texts⟩

end Body

section
variable {α : Type} [Framed α]

def bodySize (message : α) : Nat := Body.size (Framed.layout α) (Framed.record message)

def encode (message : α) : Except Failure ByteArray :=
  if maxBody < bodySize message then .error (.link (.oversized (bodySize message)))
  else .ok (Body.encode (Framed.layout α) (Framed.record message))

def decode (body : ByteArray) : Except Failure α :=
  match (Body.decode? (Framed.layout α) body).bind Framed.ofRecord? with
  | some message => .ok message
  | none => .error (.codec .undecodable)

def enclose (body : ByteArray) : ByteArray := (wordBytes body.size).toByteArray ++ body

end

end Sandbox.Frame

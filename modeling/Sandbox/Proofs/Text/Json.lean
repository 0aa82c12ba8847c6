import Sandbox.CommandLine.Basic

/-!
A reader of JSON, which goes over its text character by character. What it makes of the line of an
output is an object of the two streams, whatever they consist of.
-/

namespace Sandbox

namespace Text.Json

/-! ## Quoted texts -/

def short? : Char → Option Char
  | '"' => some '"'
  | '\\' => some '\\'
  | '/' => some '/'
  | 'b' => some '\x08'
  | 'f' => some '\x0c'
  | 'n' => some '\n'
  | 'r' => some '\r'
  | 't' => some '\t'
  | _ => none

def hex? (c : Char) : Option Nat :=
  if '0' ≤ c ∧ c ≤ '9' then some (c.toNat - '0'.toNat)
  else if 'a' ≤ c ∧ c ≤ 'f' then some (c.toNat - 'a'.toNat + 10)
  else if 'A' ≤ c ∧ c ≤ 'F' then some (c.toNat - 'A'.toNat + 10)
  else none

/-- Where the reader is in a quoted text: between two characters or within an escape. A character
beyond the first 65536 takes two escapes, of which the first is kept as the upper half. -/
inductive Place
  | between
  | escaped (upper : Option Nat)
  | digits (upper : Option Nat) (count value : Nat)
  | half (upper : Nat)
deriving DecidableEq

def ofUnit? (unit : Nat) : Option Nat → Option (Place × List Char)
  | none =>
    -- The upper half of a pair waits for the lower one, and neither stands alone.
    if 0xd800 ≤ unit ∧ unit < 0xdc00 then some (.half unit, [])
    else if 0xdc00 ≤ unit ∧ unit < 0xe000 then none
    else some (.between, [Char.ofNat unit])
  | some upper =>
    if 0xdc00 ≤ unit ∧ unit < 0xe000 then
      some (.between, [Char.ofNat (0x10000 + (upper - 0xd800) * 0x400 + (unit - 0xdc00))])
    else none

def Place.next? (c : Char) : Place → Option (Place × List Char)
  | .between =>
    if c = '\\' then some (.escaped none, [])
    else if c.toNat < 0x20 then none
    else some (.between, [c])
  | .escaped upper =>
    if c = 'u' then some (.digits upper 0 0, [])
    else if upper.isSome then none
    else (short? c).map fun short => (.between, [short])
  | .digits upper count value => do
    let value := 16 * value + (← hex? c)
    if count < 3 then some (.digits upper (count + 1) value, []) else ofUnit? value upper
  | .half upper => if c = '\\' then some (.escaped (some upper), []) else none

/-! ## Values -/

inductive Value
  | null
  | bool (value : Bool)
  | number (numeral : String)
  | text (content : String)
  | array (items : List Value)
  | object (members : List (String × Value))

def isDigits (text : List Char) : Bool := !text.isEmpty && text.all Char.isDigit

def isNumber (word : List Char) : Bool :=
  let unsigned := if word.head? = some '-' then word.tail else word
  let (mantissa, exponent) := unsigned.span fun c => c != 'e' && c != 'E'
  let (whole, fraction) := mantissa.span (· != '.')
  let power := exponent.tail
  isDigits whole && (whole.head? != some '0' || whole.length == 1)
    && (fraction.isEmpty || isDigits fraction.tail)
    && (exponent.isEmpty || isDigits power
      || (power.head? == some '+' || power.head? == some '-') && isDigits power.tail)

def word? (word : List Char) : Option Value :=
  if word = "null".toList then some .null
  else if word = "true".toList then some (.bool true)
  else if word = "false".toList then some (.bool false)
  else if isNumber word then some (.number (String.ofList word))
  else none

inductive Frame
  | items (items : List Value)
  | members (members : List (String × Value))
  | member (members : List (String × Value)) (key : String)

inductive Due
  | value
  | quoted (read : List Char) (place : Place)
  | word (read : List Char)
  | colon
  | delimiter
  | nothing (value : Value)

structure State where
  frames : List Frame := []
  due : Due := .value

namespace State

def put : List Frame → Value → Option State
  | [], value => some ⟨[], .nothing value⟩
  | .items items :: outer, value => some ⟨.items (items ++ [value]) :: outer, .delimiter⟩
  | .member members key :: outer, value =>
    some ⟨.members (members ++ [(key, value)]) :: outer, .delimiter⟩
  | .members members :: outer, .text key => some ⟨.member members key :: outer, .colon⟩
  | .members _ :: _, _ => none

def isSpace (c : Char) : Bool := c == ' ' || c == '\t' || c == '\n' || c == '\r'

def pass? (c : Char) (s : State) : Option State :=
  if isSpace c then some s
  else match s with
    | ⟨frames, .colon⟩ => if c = ':' then some ⟨frames, .value⟩ else none
    | ⟨.items items :: outer, .delimiter⟩ =>
      if c = ',' then some ⟨.items items :: outer, .value⟩
      else if c = ']' then put outer (.array items)
      else none
    | ⟨.members members :: outer, .delimiter⟩ =>
      if c = ',' then some ⟨.members members :: outer, .value⟩
      else if c = '\x7d' then put outer (.object members)
      else none
    | _ => none

/-- What a value can begin with. Only a bracket that was just opened closes here. -/
def enter? (c : Char) (frames : List Frame) : Option State :=
  if isSpace c then some ⟨frames, .value⟩
  else if c = '"' then some ⟨frames, .quoted [] .between⟩
  else if c = '[' then some ⟨.items [] :: frames, .value⟩
  else if c = '\x7b' then some ⟨.members [] :: frames, .value⟩
  else match frames with
    | .items [] :: outer => if c = ']' then put outer (.array []) else some ⟨frames, .word [c]⟩
    | .members [] :: outer => if c = '\x7d' then put outer (.object []) else none
    | .members _ :: _ => none
    | _ => some ⟨frames, .word [c]⟩

def next? (s : State) (c : Char) : Option State :=
  match s.due with
  | .value => enter? c s.frames
  | .quoted read place =>
    if c = '"' ∧ place = .between then put s.frames (.text (String.ofList read))
    else (place.next? c).map fun (place, last) => { s with due := .quoted (read ++ last) place }
  | .word read =>
    -- A word has no end of its own, so what ends it is read once more.
    if isSpace c || c == ',' || c == ']' || c == '\x7d' then do
      let s ← put s.frames (← word? read)
      s.pass? c
    else some { s with due := .word (read ++ [c]) }
  | _ => s.pass? c

def readAll? (s : State) (text : List Char) : Option State := text.foldlM next? s

def finish? : State → Option Value
  | ⟨[], .nothing value⟩ => some value
  | ⟨[], .word read⟩ => word? read
  | _ => none

end State

def parse? (text : List Char) : Option Value := (State.readAll? {} text).bind State.finish?

example : parse? "\x7b\"a\" : [-1.5e+2, \"\\ud83d\\ude00\"]\x7d".toList =
    some (.object [("a", .array [.number "-1.5e+2", .text "😀"])]) := rfl

example : parse? "\"\n\"".toList = none := rfl

/-! ## Escapes -/

open Quoted (escape encode hexDigit)

inductive Escaped (c : Char) : List Char → Prop
  | short {letter : Char} (stands : short? letter = some c) : Escaped c ['\\', letter]
  | control (below : c.toNat < 0x20) :
    Escaped c ['\\', 'u', '0', '0', hexDigit (c.toNat / 16), hexDigit (c.toNat % 16)]
  | plain (unquote : c ≠ '"') (solid : c ≠ '\\') (least : 0x20 ≤ c.toNat) : Escaped c [c]

theorem escaped (c : Char) : Escaped c (escape c) := by
  unfold escape
  iterate 7
    split
    · subst c
      exact .short rfl
  split
  · exact .control ‹_›
  · exact .plain ‹_› ‹_› (Nat.not_lt.mp ‹_›)

theorem hexDigit_ge : ∀ n < 16, 0x20 ≤ (hexDigit n).toNat := by decide

theorem short?_ge {letter c : Char} (stands : short? letter = some c) : 0x20 ≤ letter.toNat := by
  unfold short? at stands
  split at stands
  case h_9 => cases stands
  all_goals decide

theorem Escaped.printable {c : Char} {text : List Char} (escaped : Escaped c text) :
    ∀ d ∈ text, 0x20 ≤ d.toNat := by
  cases escaped with
  | short stands => simpa using short?_ge stands
  | control below =>
    have upper := hexDigit_ge (c.toNat / 16) (by omega)
    have lower := hexDigit_ge (c.toNat % 16) (by omega)
    simp [upper, lower]
  | plain unquote solid least => simpa using least

theorem encode_printable (text : String) : ∀ c ∈ encode text.toList, 0x20 ≤ c.toNat := by
  have quote : 0x20 ≤ '"'.toNat := by decide
  simp only [encode, List.mem_append, List.mem_cons, List.mem_flatMap, List.not_mem_nil, or_false]
  rintro c ((rfl | ⟨d, -, member⟩) | rfl)
  · exact quote
  · exact (escaped d).printable c member
  · exact quote

/-! ## Reading what was written -/

namespace State

@[simp] theorem readAll?_nil (s : State) : s.readAll? [] = some s := rfl

theorem readAll?_cons (s : State) (c : Char) (text : List Char) :
    s.readAll? (c :: text) = (s.next? c).bind (·.readAll? text) := rfl

theorem readAll?_append (s : State) (text rest : List Char) :
    s.readAll? (text ++ rest) = (s.readAll? text).bind (·.readAll? rest) := List.foldlM_append ..

end State

theorem hex?_hexDigit : ∀ n < 16, hex? (hexDigit n) = some n := by decide

section
variable (frames : List Frame)

theorem Escaped.readAll? {c : Char} {text : List Char} (escaped : Escaped c text)
    (read : List Char) : State.readAll? ⟨frames, .quoted read .between⟩ text =
      some ⟨frames, .quoted (read ++ [c]) .between⟩ := by
  cases escaped with
  | @short letter stands =>
    have other : letter ≠ 'u' := by
      rintro rfl
      cases stands
    simp [State.readAll?_cons, State.next?, Place.next?, stands, other]
  | control below =>
    have zero : hex? '0' = some 0 := by decide
    have upper := hex?_hexDigit (c.toNat / 16) (by omega)
    have lower := hex?_hexDigit (c.toNat % 16) (by omega)
    have unit : ofUnit? c.toNat none = some (.between, [c]) := by
      rw [ofUnit?, if_neg (by omega), if_neg (by omega), Char.ofNat_toNat]
    simp [State.readAll?_cons, State.next?, Place.next?, zero, upper, lower, Nat.div_add_mod, unit]
  | plain unquote solid least =>
    simp [State.readAll?_cons, State.next?, Place.next?, unquote, solid, least]

theorem readAll?_flatMap (text read : List Char) :
    State.readAll? ⟨frames, .quoted read .between⟩ (text.flatMap escape) =
      some ⟨frames, .quoted (read ++ text) .between⟩ := by
  induction text generalizing read with
  | nil => simp
  | cons c rest ih =>
    rw [List.flatMap_cons, State.readAll?_append, (escaped c).readAll?, Option.bind_some, ih,
      List.append_assoc]
    rfl

theorem readAll?_encode (text : String) :
    State.readAll? ⟨frames, .value⟩ (encode text.toList) = State.put frames (.text text) := by
  have closed : State.readAll? ⟨frames, .quoted text.toList .between⟩ ['"'] =
      State.put frames (.text text) := by
    simp [State.readAll?_cons, State.next?]
  rw [encode, List.cons_append, State.readAll?_cons]
  change State.readAll? ⟨frames, .quoted [] .between⟩ _ = _
  rw [State.readAll?_append, readAll?_flatMap, Option.bind_some, List.nil_append, closed]

end

/-! ## Objects of texts -/

def written (member : String × String) : List Char :=
  encode member.1.toList ++ ':' :: encode member.2.toList

def compact : List (String × String) → List Char
  | [] => ['\x7b', '\x7d']
  | first :: others =>
    '\x7b' :: written first ++ others.flatMap (fun member => ',' :: written member) ++ ['\x7d']

def texts (members : List (String × String)) : List (String × Value) :=
  members.map fun member => (member.1, .text member.2)

theorem readAll?_written (before : List (String × Value)) (outer : List Frame)
    (member : String × String) :
    State.readAll? ⟨.members before :: outer, .value⟩ (written member) =
      some ⟨.members (before ++ texts [member]) :: outer, .delimiter⟩ := by
  rw [written, State.readAll?_append, readAll?_encode, State.put, Option.bind_some,
    State.readAll?_cons]
  exact readAll?_encode (.member before member.1 :: outer) member.2

theorem readAll?_others (before : List (String × Value)) (outer : List Frame)
    (members : List (String × String)) :
    State.readAll? ⟨.members before :: outer, .delimiter⟩
        (members.flatMap fun member => ',' :: written member) =
      some ⟨.members (before ++ texts members) :: outer, .delimiter⟩ := by
  induction members generalizing before with
  | nil => simp [texts]
  | cons member others ih =>
    rw [List.flatMap_cons, List.cons_append, State.readAll?_cons]
    change State.readAll? ⟨.members before :: outer, .value⟩ _ = _
    rw [State.readAll?_append, readAll?_written, Option.bind_some, ih, List.append_assoc]
    rfl

theorem readAll?_compact (members : List (String × String)) :
    State.readAll? {} (compact members) = some ⟨[], .nothing (.object (texts members))⟩ := by
  cases members with
  | nil => rfl
  | cons first others =>
    rw [compact, List.cons_append, List.cons_append, State.readAll?_cons]
    change State.readAll? ⟨[.members []], .value⟩ _ = _
    rw [State.readAll?_append, State.readAll?_append, readAll?_written, Option.bind_some,
      readAll?_others, Option.bind_some]
    rfl

theorem readAll?_spaces {after : List Char} (spaces : ∀ c ∈ after, State.isSpace c = true)
    (value : Value) :
    State.readAll? ⟨[], .nothing value⟩ after = some ⟨[], .nothing value⟩ := by
  induction after with
  | nil => rfl
  | cons c rest ih =>
    obtain ⟨space, others⟩ := List.forall_mem_cons.mp spaces
    have skipped : State.next? ⟨[], .nothing value⟩ c = some ⟨[], .nothing value⟩ := if_pos space
    rw [State.readAll?_cons, skipped, Option.bind_some, ih others]

theorem parse?_compact (members : List (String × String)) (after : List Char)
    (spaces : ∀ c ∈ after, State.isSpace c = true) :
    parse? (compact members ++ after) = some (.object (texts members)) := by
  rw [parse?, State.readAll?_append, readAll?_compact, Option.bind_some, readAll?_spaces spaces]
  rfl

theorem written_printable (member : String × String) : ∀ c ∈ written member, 0x20 ≤ c.toNat := by
  intro c member
  rw [written, List.mem_append, List.mem_cons] at member
  rcases member with key | rfl | text
  · exact encode_printable _ c key
  · decide
  · exact encode_printable _ c text

theorem compact_printable (members : List (String × String)) :
    ∀ c ∈ compact members, 0x20 ≤ c.toNat := by
  cases members with
  | nil => simp [compact]
  | cons first others =>
    simp only [compact, List.mem_append, List.mem_cons, List.mem_flatMap, List.not_mem_nil,
      or_false]
    rintro c (((rfl | early) | ⟨other, -, rfl | late⟩) | rfl)
    · decide
    · exact written_printable first c early
    · decide
    · exact written_printable other c late
    · decide

end Text.Json

/-! ## The line of an output -/

namespace RunOutput

open Text.Json (Value compact written texts parse?)
open Text.Quoted (encode)

theorem toList_line (output : RunOutput) :
    output.line.toList = compact [("stdout", output.stdout), ("stderr", output.stderr)] := by
  have stdout : "\x7b\"stdout\":".toList = '\x7b' :: encode "stdout".toList ++ [':'] := by decide
  have stderr : ",\"stderr\":".toList = ',' :: encode "stderr".toList ++ [':'] := by decide
  have line : output.line.toList = "\x7b\"stdout\":".toList ++ encode output.stdout.toList ++
      ",\"stderr\":".toList ++ encode output.stderr.toList ++ ['\x7d'] := String.toList_ofList
  rw [line, stdout, stderr]
  simp only [compact, written, List.flatMap_cons, List.flatMap_nil, List.append_assoc,
    List.cons_append, List.nil_append]

/-- What is printed is one line, and a JSON object from which both streams are got back. -/
structure ReadsBack (output : RunOutput) : Prop where
  printable : ∀ c ∈ output.line.toList, 0x20 ≤ c.toNat
  single : ∀ showTime, ((CommandLine.Outcome.ran true output).print showTime).stdout =
    output.line ++ "\n" ∧ '\n' ∉ output.line.toList
  accepted : parse? output.line.toList =
    some (.object [("stdout", .text output.stdout), ("stderr", .text output.stderr)])
  printed : ∀ showTime,
    parse? ((CommandLine.Outcome.ran true output).print showTime).stdout.toList =
      some (.object [("stdout", .text output.stdout), ("stderr", .text output.stderr)])
  distinct : ∀ other : RunOutput, other.line = output.line → other = output

theorem parse?_line (output : RunOutput) (after : List Char)
    (spaces : ∀ c ∈ after, Text.Json.State.isSpace c = true) :
    parse? (output.line.toList ++ after) =
      some (.object [("stdout", .text output.stdout), ("stderr", .text output.stderr)]) := by
  rw [toList_line, Text.Json.parse?_compact _ _ spaces]
  rfl

theorem output_reads_back (output : RunOutput) : ReadsBack output := by
  have printable : ∀ c ∈ output.line.toList, 0x20 ≤ c.toNat := by
    rw [toList_line]
    exact Text.Json.compact_printable _
  have accepted : ∀ output : RunOutput, parse? output.line.toList =
      some (.object [("stdout", .text output.stdout), ("stderr", .text output.stderr)]) := by
    intro output
    rw [← output.parse?_line [] nofun, List.append_nil]
  constructor
  case printable => exact printable
  case single =>
    intro showTime
    refine ⟨rfl, fun member => ?_⟩
    exact absurd (printable _ member) (by decide)
  case accepted => exact accepted output
  case printed =>
    intro showTime
    have stdout : ((CommandLine.Outcome.ran true output).print showTime).stdout.toList =
        output.line.toList ++ ['\n'] := String.toList_append
    rw [stdout, output.parse?_line _ (by simp [Text.Json.State.isSpace])]
  case distinct =>
    intro other same
    have read := accepted other
    rw [same, accepted output] at read
    obtain ⟨stdout, stderr⟩ := output
    obtain ⟨stdout', stderr'⟩ := other
    simpa [eq_comm] using read

end RunOutput

end Sandbox

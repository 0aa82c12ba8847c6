import Sandbox.Proofs.Context.Launch

namespace Sandbox

namespace Text

/-! ## White space -/

def WhiteSpace (c : Char) : Prop :=
  0x09 ≤ c.toNat ∧ c.toNat ≤ 0x0d ∨ c.toNat = 0x20 ∨ c.toNat = 0x85 ∨ c.toNat = 0xa0 ∨
  c.toNat = 0x1680 ∨ 0x2000 ≤ c.toNat ∧ c.toNat ≤ 0x200a ∨ c.toNat = 0x2028 ∨ c.toNat = 0x2029 ∨
  c.toNat = 0x202f ∨ c.toNat = 0x205f ∨ c.toNat = 0x3000

theorem isBlank_iff (c : Char) : isBlank c = true ↔ WhiteSpace c := by
  simp only [isBlank, blanks, List.contains_eq_mem, decide_eq_true_eq, List.mem_cons,
    List.not_mem_nil, or_false, WhiteSpace]
  omega

theorem isBlank_eq_false_iff (c : Char) : isBlank c = false ↔ ¬WhiteSpace c := by
  rw [← isBlank_iff, Bool.not_eq_true]

theorem trim_parts (text : List Char) : ∃ before after, text = before ++ trim text ++ after ∧
    (∀ c ∈ before, WhiteSpace c) ∧ ∀ c ∈ after, WhiteSpace c := by
  have white : ∀ rest : List Char, ∀ c ∈ rest.takeWhile isBlank, WhiteSpace c :=
    fun rest c member => (isBlank_iff c).mp (List.mem_takeWhile_imp member)
  have back := (text.dropWhile isBlank).reverse.takeWhile_append_dropWhile (p := isBlank)
  refine ⟨text.takeWhile isBlank, ((text.dropWhile isBlank).reverse.takeWhile isBlank).reverse, ?_,
    white text, fun c member => white _ c (List.mem_reverse.mp member)⟩
  rw [trim, List.append_assoc, ← List.reverse_append, back, List.reverse_reverse,
    List.takeWhile_append_dropWhile]

theorem trim_surrounded {before core after : List Char} (front : ∀ c ∈ before, WhiteSpace c)
    (back : ∀ c ∈ after, WhiteSpace c) (solid : ∀ c ∈ core, ¬WhiteSpace c) (nonempty : core ≠ []) :
    trim (before ++ core ++ after) = core := by
  have front' : ∀ c ∈ before, isBlank c = true := fun c member =>
    (isBlank_iff c).mpr (front c member)
  have back' : ∀ c ∈ after.reverse, isBlank c = true := fun c member =>
    (isBlank_iff c).mpr (back c (List.mem_reverse.mp member))
  have solid' : ∀ c ∈ core, isBlank c = false := fun c member =>
    (isBlank_eq_false_iff c).mpr (solid c member)
  -- Both scans stop at the core, the second one at its last character.
  have keeps : ∀ rest, (core ++ rest).dropWhile isBlank = core ++ rest := by
    intro rest
    cases core with
    | nil => exact absurd rfl nonempty
    | cons c core => exact List.dropWhile_cons_of_neg (by simp [solid' c List.mem_cons_self])
  have trimmed := trim_eq_self solid'
  rw [trim, ← List.append_nil core, keeps, List.append_nil] at trimmed
  rw [trim, List.append_assoc, List.dropWhile_append_of_pos front', keeps, List.reverse_append,
    List.dropWhile_append_of_pos back', trimmed]

/-! ## Numbers -/

structure Spelling where
  before : List Char
  signed : Bool
  digits : List Char
  after : List Char
  before_white : ∀ c ∈ before, WhiteSpace c
  digits_ne_nil : digits ≠ []
  digits_decimal : ∀ c ∈ digits, c.isDigit = true
  after_white : ∀ c ∈ after, WhiteSpace c

namespace Spelling

def sign (spelling : Spelling) : List Char := if spelling.signed then ['+'] else []

def text (spelling : Spelling) : List Char :=
  spelling.before ++ (spelling.sign ++ spelling.digits) ++ spelling.after

def value (spelling : Spelling) : Nat := Nat.ofDigitChars 10 spelling.digits 0

variable (spelling : Spelling)

theorem solid : ∀ c ∈ spelling.sign ++ spelling.digits, ¬WhiteSpace c := by
  intro c member
  rw [← isBlank_eq_false_iff]
  rcases List.mem_append.mp member with signed | digit
  · rw [sign] at signed
    split at signed
    · obtain rfl := List.mem_singleton.mp signed
      decide
    · cases signed
  · exact isBlank_of_isDigit (spelling.digits_decimal c digit)

theorem trim_text : trim spelling.text = spelling.sign ++ spelling.digits :=
  trim_surrounded spelling.before_white spelling.after_white spelling.solid
    (List.append_ne_nil_of_right_ne_nil _ spelling.digits_ne_nil)

theorem isDigit_of_split {front rest : List Char} {c : Char} (begun : front ≠ [])
    (split : spelling.sign ++ spelling.digits = front ++ c :: rest) : c.isDigit = true := by
  obtain ⟨first, front, rfl⟩ := List.exists_cons_of_ne_nil begun
  apply spelling.digits_decimal
  rw [sign] at split
  split at split
  · simp only [List.cons_append, List.nil_append, List.cons.injEq] at split
    simp [split.2]
  · rw [List.nil_append] at split
    simp [split]

theorem mem_text {c : Char} (member : c ∈ spelling.text) :
    WhiteSpace c ∨ c = '+' ∨ c.isDigit = true := by
  simp only [text, List.mem_append] at member
  rcases member with (front | signed | digit) | back
  · exact .inl (spelling.before_white c front)
  · rw [sign] at signed
    split at signed
    · exact .inr (.inl (List.mem_singleton.mp signed))
    · cases signed
  · exact .inr (.inr (spelling.digits_decimal c digit))
  · exact .inl (spelling.after_white c back)

end Spelling

def Spells (text : List Char) (n : Nat) : Prop :=
  ∃ spelling : Spelling, spelling.text = text ∧ spelling.value = n

namespace Numeral

theorem isDigit_of_digits? {bound n : Nat} {text : List Char} {value : Nat}
    (read : digits? bound text value = some n) : ∀ c ∈ text, c.isDigit = true := by
  induction text generalizing value with
  | nil => exact nofun
  | cons c rest ih =>
    rw [digits?, digit?] at read
    split at read
    · rename_i digit
      change (if 10 * value + (c.toNat - '0'.toNat) ≤ bound then _ else _) = _ at read
      split at read
      · exact List.forall_mem_cons.mpr ⟨(isDigit_iff c).mpr digit, ih read⟩
      · cases read
    · cases read

theorem unsigned?_eq_some_iff {bound n : Nat} {text : List Char} :
    unsigned? bound text = some n ↔ text ≠ [] ∧ (∀ c ∈ text, c.isDigit = true) ∧
      Nat.ofDigitChars 10 text 0 = n ∧ n ≤ bound := by
  by_cases empty : text = []
  · simp [unsigned?, empty]
  rw [unsigned?, if_neg (by simpa using empty)]
  constructor
  · intro read
    have digits := isDigit_of_digits? read
    rw [digits?_eq digits (Nat.zero_le bound)] at read
    split at read
    · cases read
      exact ⟨empty, digits, rfl, ‹_›⟩
    · cases read
  · rintro ⟨-, digits, rfl, bounded⟩
    rw [digits?_eq digits (Nat.zero_le bound), if_pos bounded]

theorem parse?_eq_some_iff {bound n : Nat} {text : List Char} :
    parse? bound text = some n ↔ ∃ signed : Bool, ∃ digits,
      text = (if signed then ['+'] else []) ++ digits ∧ unsigned? bound digits = some n := by
  constructor
  · intro read
    unfold parse? at read
    split at read
    · exact ⟨true, _, rfl, read⟩
    · exact ⟨false, _, rfl, read⟩
  · rintro ⟨signed, digits, rfl, read⟩
    cases signed with
    | true => exact read
    | false =>
      obtain ⟨nonempty, decimal, rfl, bounded⟩ := unsigned?_eq_some_iff.mp read
      exact (parse?_eq decimal nonempty).trans (if_pos bounded)

theorem parse?_trim_eq_some_iff {bound n : Nat} {text : List Char} :
    parse? bound (trim text) = some n ↔ Spells text n ∧ n ≤ bound := by
  rw [parse?_eq_some_iff]
  constructor
  · rintro ⟨signed, digits, trimmed, read⟩
    obtain ⟨before, after, whole, front, back⟩ := trim_parts text
    obtain ⟨nonempty, decimal, rfl, bounded⟩ := unsigned?_eq_some_iff.mp read
    rw [trimmed] at whole
    exact ⟨⟨⟨before, signed, digits, after, front, nonempty, decimal, back⟩, whole.symm, rfl⟩,
      bounded⟩
  · rintro ⟨⟨spelling, rfl, rfl⟩, bounded⟩
    exact ⟨spelling.signed, spelling.digits, spelling.trim_text, unsigned?_eq_some_iff.mpr
      ⟨spelling.digits_ne_nil, spelling.digits_decimal, rfl, bounded⟩⟩

end Numeral

namespace Spells

variable {text : List Char} {n : Nat}

theorem iff_parse? : Spells text n ↔ Numeral.parse? n (trim text) = some n := by
  rw [Numeral.parse?_trim_eq_some_iff, and_iff_left (Nat.le_refl n)]

instance : Decidable (Spells text n) := decidable_of_iff _ iff_parse?.symm

example : Spells "\u3000+0042\n".toList 42 := by decide

theorem unique {m : Nat} (this : Spells text n) (that : Spells text m) : n = m := by
  have bounded := Numeral.parse?_trim_eq_some_iff.mpr ⟨this, Nat.le_max_left n m⟩
  exact Option.some.inj (bounded.symm.trans
    (Numeral.parse?_trim_eq_some_iff.mpr ⟨that, Nat.le_max_right n m⟩))

theorem mem (spells : Spells text n) {c : Char} (member : c ∈ text) :
    WhiteSpace c ∨ c = '+' ∨ c.isDigit = true := by
  obtain ⟨spelling, rfl, -⟩ := spells
  exact spelling.mem_text member

theorem has_digit (spells : Spells text n) : ∃ c ∈ text, c.isDigit = true := by
  obtain ⟨spelling, rfl, -⟩ := spells
  obtain ⟨c, digit⟩ := List.exists_mem_of_ne_nil _ spelling.digits_ne_nil
  exact ⟨c, by simp [Spelling.text, digit], spelling.digits_decimal c digit⟩

theorem digit_or_white (spells : Spells text n) {left right : List Char} {c : Char}
    (split : text = left ++ c :: right) (begun : ∃ a ∈ left, ¬WhiteSpace a) :
    c.isDigit = true ∨ ∀ b ∈ c :: right, WhiteSpace b := by
  obtain ⟨spelling, rfl, -⟩ := spells
  obtain ⟨a, inLeft, solid⟩ := begun
  rw [Spelling.text, List.append_assoc] at split
  -- The character is behind the white space in front, since something solid comes before it: it is
  -- in the numeral, where it is not the first, or in the white space at the end.
  rcases List.append_eq_append_iff.mp split with ⟨front, rfl, rest⟩ | ⟨_, before, -⟩
  · have begun : front ≠ [] := by
      rintro rfl
      rw [List.append_nil] at inLeft
      exact solid (spelling.before_white a inLeft)
    have ended : ∀ gap, spelling.after = gap ++ c :: right → ∀ b ∈ c :: right, WhiteSpace b :=
      fun _ back b member => spelling.after_white b (back ▸ List.mem_append_right _ member)
    rcases List.append_eq_append_iff.mp rest with ⟨gap, -, back⟩ | ⟨gap, core, back⟩
    · exact .inr (ended _ back)
    · cases gap with
      | nil => exact .inr (ended [] back.symm)
      | cons c' gap =>
        cases back
        exact .inl (spelling.isDigit_of_split begun core)
  · exact absurd (spelling.before_white a (before ▸ List.mem_append_left _ inLeft)) solid

end Spells

end Text

namespace Setting

open Text

variable {name value : String}

theorem parseMillis_of_spells {n : Nat} (spells : Spells value.toList n) (fits : Fits n) :
    parseMillis name value = .ok (.ofMillis n) := by
  have read := Numeral.parse?_trim_eq_some_iff.mpr ⟨spells, fits.2⟩
  obtain ⟨count, rfl⟩ := Nat.exists_eq_succ_of_ne_zero (Nat.ne_of_gt fits.1)
  rw [parseMillis, show Numeral.maxWord = 2 ^ 64 - 1 from rfl, read]

theorem parseMillis_of_spells_zero (spells : Spells value.toList 0) :
    parseMillis name value = .error (.config (.zero name)) := by
  have read := Numeral.parse?_trim_eq_some_iff.mpr ⟨spells, Nat.zero_le Numeral.maxWord⟩
  rw [parseMillis, read]

theorem parseMillis_of_unread (unread : ¬∃ n, Spells value.toList n ∧ n ≤ 2 ^ 64 - 1) :
    parseMillis name value = .error (.config (.notMillis name value)) := by
  have none : Numeral.parse? Numeral.maxWord (trim value.toList) = none :=
    Option.eq_none_iff_forall_ne_some.mpr fun n read =>
      unread ⟨n, Numeral.parse?_trim_eq_some_iff.mp read⟩
  rw [parseMillis, none]

theorem parseMillis_outcomes (name value : String) :
    (∃ n, Spells value.toList n ∧ Fits n ∧ parseMillis name value = .ok (.ofMillis n)) ∨
    (Spells value.toList 0 ∧ parseMillis name value = .error (.config (.zero name))) ∨
    ((¬∃ n, Spells value.toList n ∧ n ≤ 2 ^ 64 - 1) ∧
      parseMillis name value = .error (.config (.notMillis name value))) := by
  by_cases read : ∃ n, Spells value.toList n ∧ n ≤ 2 ^ 64 - 1
  · obtain ⟨n, spells, bounded⟩ := read
    rcases Nat.eq_zero_or_pos n with rfl | positive
    · exact .inr (.inl ⟨spells, parseMillis_of_spells_zero spells⟩)
    · have fits : Fits n := ⟨positive, bounded⟩
      exact .inl ⟨n, spells, fits, parseMillis_of_spells spells fits⟩
  · exact .inr (.inr ⟨read, parseMillis_of_unread read⟩)

theorem zero_message (name : String) : (Failure.config (.zero name)).message =
    "configuration error: " ++ name ++ " must be greater than zero" :=
  (String.append_assoc ..).symm

theorem notMillis_message (name value : String) :
    (Failure.config (.notMillis name value)).message = "configuration error: " ++ name ++
      " must be a whole number of milliseconds, got '" ++ value ++ "'" := by
  change "configuration error: " ++ (name ++ _ ++ value ++ "'") = _
  simp only [String.append_assoc]

theorem getLast?_append {front back : String} (nonempty : back.toList ≠ []) :
    (front ++ back).toList.getLast? = back.toList.getLast? := by
  rw [String.toList_append, List.getLast?_append_of_ne_nil _ nonempty]

theorem zero_message_ne (name other value : String) :
    (Failure.config (.zero name)).message ≠ (Failure.config (.notMillis other value)).message := by
  rw [zero_message, notMillis_message]
  intro same
  have last := congrArg (fun text : String => text.toList.getLast?) same
  rw [getLast?_append (by decide), getLast?_append (by decide)] at last
  exact absurd last (by decide)

def Reports (outcome : Except Failure Duration) (text : String) : Prop :=
  ∃ failure, outcome = .error failure ∧ failure.message = text

theorem reports_iff {text : String} : Reports (parseMillis name value) text ↔
    Spells value.toList 0 ∧ (Failure.config (.zero name)).message = text ∨
    (¬∃ n, Spells value.toList n ∧ n ≤ 2 ^ 64 - 1) ∧
      (Failure.config (.notMillis name value)).message = text := by
  constructor
  · rintro ⟨failure, refused, rfl⟩
    rcases parseMillis_outcomes name value with
      ⟨n, -, -, read⟩ | ⟨spells, refused'⟩ | ⟨unread, refused'⟩
    · cases read.symm.trans refused
    · cases refused.symm.trans refused'
      exact .inl ⟨spells, rfl⟩
    · cases refused.symm.trans refused'
      exact .inr ⟨unread, rfl⟩
  · rintro (⟨spells, rfl⟩ | ⟨unread, rfl⟩)
    · exact ⟨_, parseMillis_of_spells_zero spells, rfl⟩
    · exact ⟨_, parseMillis_of_unread unread, rfl⟩

/-- What becomes of a value: it is taken as the count that it spells, or it is refused for being
zero, or, in all other cases, for being no count. -/
structure ReadsCount (name value : String) : Prop where
  accepted : ∀ span, parseMillis name value = .ok span ↔
    ∃ n, Spells value.toList n ∧ 1 ≤ n ∧ n ≤ 2 ^ 64 - 1 ∧ span = .ofMillis n
  zero : Reports (parseMillis name value)
    ("configuration error: " ++ name ++ " must be greater than zero") ↔ Spells value.toList 0
  other : Reports (parseMillis name value) ("configuration error: " ++ name ++
      " must be a whole number of milliseconds, got '" ++ value ++ "'") ↔
    ¬∃ n, Spells value.toList n ∧ n ≤ 2 ^ 64 - 1
  outcomes : (∃ span, parseMillis name value = .ok span) ∨
    parseMillis name value = .error (.config (.zero name)) ∨
    parseMillis name value = .error (.config (.notMillis name value))
  -- The texts of the last kind: a character that has no place in a count, no digit at all, a sign
  -- or white space within, too large a number.
  foreign : ∀ c ∈ value.toList, ¬WhiteSpace c → c ≠ '+' → ¬c.isDigit →
    parseMillis name value = .error (.config (.notMillis name value))
  empty : (∀ c ∈ value.toList, ¬c.isDigit) →
    parseMillis name value = .error (.config (.notMillis name value))
  parted : ∀ left c right, value.toList = left ++ c :: right → (∃ a ∈ left, ¬WhiteSpace a) →
    ¬c.isDigit → (∃ b ∈ c :: right, ¬WhiteSpace b) →
    parseMillis name value = .error (.config (.notMillis name value))
  excessive : ∀ n, Spells value.toList n → 2 ^ 64 ≤ n →
    parseMillis name value = .error (.config (.notMillis name value))

theorem counts_read_exactly (name value : String) : ReadsCount name value := by
  have outcomes := parseMillis_outcomes name value
  constructor
  case accepted =>
    intro span
    constructor
    · intro accepted
      rcases outcomes with ⟨n, spells, fits, read⟩ | ⟨-, refused⟩ | ⟨-, refused⟩
      · exact ⟨n, spells, fits.1, fits.2, Except.ok.inj (accepted.symm.trans read)⟩
      · cases accepted.symm.trans refused
      · cases accepted.symm.trans refused
    · rintro ⟨n, spells, positive, bounded, rfl⟩
      exact parseMillis_of_spells spells ⟨positive, bounded⟩
  case zero =>
    rw [← zero_message, reports_iff]
    constructor
    · rintro (⟨spells, -⟩ | ⟨-, same⟩)
      · exact spells
      · exact absurd same.symm (zero_message_ne name name value)
    · exact fun spells => .inl ⟨spells, rfl⟩
  case other =>
    rw [← notMillis_message, reports_iff]
    constructor
    · rintro (⟨-, same⟩ | ⟨unread, -⟩)
      · exact absurd same (zero_message_ne name name value)
      · exact unread
    · exact fun unread => .inr ⟨unread, rfl⟩
  case outcomes =>
    rcases outcomes with ⟨n, -, -, read⟩ | ⟨-, refused⟩ | ⟨-, refused⟩
    · exact .inl ⟨_, read⟩
    · exact .inr (.inl refused)
    · exact .inr (.inr refused)
  case foreign =>
    intro c member solid unsigned undigit
    apply parseMillis_of_unread
    rintro ⟨n, spells, -⟩
    rcases spells.mem member with white | rfl | digit
    · exact solid white
    · exact unsigned rfl
    · exact undigit digit
  case empty =>
    intro undigit
    apply parseMillis_of_unread
    rintro ⟨n, spells, -⟩
    obtain ⟨c, member, digit⟩ := spells.has_digit
    exact undigit c member digit
  case parted =>
    rintro left c right split begun undigit ⟨b, member, solid⟩
    apply parseMillis_of_unread
    rintro ⟨n, spells, -⟩
    rcases spells.digit_or_white split begun with digit | white
    · exact undigit digit
    · exact solid (white b member)
  case excessive =>
    intro n spells excess
    apply parseMillis_of_unread
    rintro ⟨m, spells', bounded⟩
    cases spells.unique spells'
    omega

end Setting

end Sandbox

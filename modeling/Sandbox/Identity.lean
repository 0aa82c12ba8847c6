import Sandbox.Message

namespace Sandbox.CorrelationId

def hexDigit (n : Nat) : Char := "0123456789abcdef".toList.getD (n % 16) '0'

def hexDigits (n : Nat) : Nat → List Char
  | 0 => []
  | count + 1 => hexDigits (n / 16) count ++ [hexDigit n]

def generate (serial : Nat) : CorrelationId :=
  let digits := hexDigits serial 30
  ⟨String.ofList (digits.take 12 ++ '4' :: (digits.drop 12).take 3 ++ '8' :: digits.drop 15)⟩

theorem hexDigits_length (n count : Nat) : (hexDigits n count).length = count := by
  induction count generalizing n with
  | zero => rfl
  | succ count ih => simp [hexDigits, ih]

theorem generate_ne_warmup (serial : Nat) : generate serial ≠ .warmup := by
  intro same
  have lengths := congrArg (fun id => id.text.toList.length) same
  simp [generate, hexDigits_length, warmup] at lengths

def isUuid (id : CorrelationId) : Bool :=
  let digits := id.text.toList
  digits.length == 32
    && digits.all (fun c => c.isDigit || ('a' ≤ c && c ≤ 'f'))
    && digits[12]? == some '4'
    && (digits[16]?.any fun c => c == '8' || c == '9' || c == 'a' || c == 'b')

end Sandbox.CorrelationId

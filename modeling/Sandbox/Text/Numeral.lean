namespace Sandbox.Text

def blanks : List Nat :=
  [0x09, 0x0a, 0x0b, 0x0c, 0x0d, 0x20, 0x85, 0xa0, 0x1680,
   0x2000, 0x2001, 0x2002, 0x2003, 0x2004, 0x2005, 0x2006, 0x2007, 0x2008, 0x2009, 0x200a,
   0x2028, 0x2029, 0x202f, 0x205f, 0x3000]

def isBlank (c : Char) : Bool := blanks.contains c.toNat

def trim (text : List Char) : List Char :=
  ((text.dropWhile isBlank).reverse.dropWhile isBlank).reverse

namespace Numeral

def maxWord : Nat := 18446744073709551615

def digit? (c : Char) : Option Nat :=
  if '0' ≤ c ∧ c ≤ '9' then some (c.toNat - '0'.toNat) else none

def digits? (bound : Nat) : List Char → Nat → Option Nat
  | [], value => some value
  | c :: rest, value => do
    let d ← digit? c
    if 10 * value + d ≤ bound then digits? bound rest (10 * value + d) else none

def unsigned? (bound : Nat) (text : List Char) : Option Nat :=
  if text.isEmpty then none else digits? bound text 0

def parse? (bound : Nat) : List Char → Option Nat
  | '+' :: rest => unsigned? bound rest
  | text => unsigned? bound text

end Numeral

end Sandbox.Text

/-!
# Hexadecimal digits

Numbers in lower case hexadecimal digits of a fixed width, and the value of a digit in either case.
-/

namespace RamlSchema.Text.Hex

def digit (n : Nat) : Char := if n < 10 then .ofNat (0x30 + n) else .ofNat (0x57 + n)

def digits : (width : Nat) → (n : Nat) → List Char
  | 0, _ => []
  | width + 1, n => digits width (n / 16) ++ [digit (n % 16)]

def value? (c : Char) : Option Nat :=
  if '0' ≤ c ∧ c ≤ '9' then some (c.toNat - 0x30)
  else if 'a' ≤ c ∧ c ≤ 'f' then some (c.toNat - 0x57)
  else if 'A' ≤ c ∧ c ≤ 'F' then some (c.toNat - 0x37)
  else none

theorem value?_digit : ∀ n < 16, value? (digit n) = some n := by decide

end RamlSchema.Text.Hex

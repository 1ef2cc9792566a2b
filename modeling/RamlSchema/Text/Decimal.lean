/-!
# Decimal digits

Numbers in decimal digits without leading zeros, and the number that a run of digits writes.
-/

namespace RamlSchema.Text.Decimal

def digit (n : Nat) : Char := .ofNat (0x30 + n)

def digits (n : Nat) : List Char :=
  if n < 10 then [digit n] else digits (n / 10) ++ [digit (n % 10)]

def ofDigits (cs : List Char) : Nat := cs.foldl (fun n c => n * 10 + (c.toNat - 0x30)) 0

def signed : Int → List Char
  | .ofNat n => digits n
  | .negSucc n => '-' :: digits (n + 1)

def nat (n : Nat) : String := .ofList (digits n)

def int (n : Int) : String := .ofList (signed n)

theorem ofDigits_append (cs : List Char) (c : Char) :
    ofDigits (cs ++ [c]) = ofDigits cs * 10 + (c.toNat - 0x30) := by
  simp [ofDigits]

theorem toNat_digit : ∀ n < 10, (digit n).toNat - 0x30 = n := by decide

theorem ofDigits_digits (n : Nat) : ofDigits (digits n) = n := by
  induction n using Nat.strongRecOn with
  | ind n ih =>
    rw [digits]
    split
    · simp [ofDigits, toNat_digit n (by assumption)]
    · rw [ofDigits_append, ih (n / 10) (by omega), toNat_digit _ (by omega)]
      omega

end RamlSchema.Text.Decimal

import RamlSchema.Number.Binary

/-!
# Numbers

Integers of any size, binary numbers, and the three that are no finite number. Integers stay exact
among themselves, and beside any other number they become binary.
-/

namespace RamlSchema

inductive Number where
  | int (value : Int)
  | binary (value : Binary)
  | infinity (negative : Bool)
  | nan
  deriving DecidableEq, Repr

namespace Number

/-- The number that `digits` times ten to the `exponent` stands for. Where that is too large, it is
infinite, and its size shows this before any power is worked out. -/
def ofDecimal (digits : Nat) (size exponent : Int) : Number :=
  if digits = 0 ∨ size < -323 then .binary .zero
  else if 309 < size then .infinity false
  else ((Binary.ofDecimal? false digits exponent).map .binary).getD (.infinity false)

def negate : Number → Number
  | .int n => .int (-n)
  | .binary x => .binary x.negate
  | .infinity negative => .infinity !negative
  | .nan => .nan

def isNonzero : Number → Bool
  | .int n => n != 0
  | .binary x => x.mantissa != 0
  | .infinity _ | .nan => true

/-- The digits and the exponent of two of a finite number. -/
def parts? : Number → Option (Int × Int)
  | .int value => some (value, 0)
  | .binary x => some (x.signed, x.exponent)
  | .infinity _ | .nan => none

def agrees (m n : Number) : Bool :=
  match m.parts?, n.parts? with
  | some (a, i), some (b, j) => a * Nat.pow 2 (i - j).toNat == b * Nat.pow 2 (j - i).toNat
  | _, _ => m == n

def exceedsOne : Number → Bool
  | .int n => 1 < n
  | .binary x => !x.negative && x.quotient.2 < x.quotient.1
  | .infinity negative => !negative
  | .nan => false

/-- The number of things that an integer counts. -/
def count? : Number → Option Nat
  | .int n => some n.toNat
  | .binary _ | .infinity _ | .nan => none

/-- The number as a binary one, unless it is an integer that is too large. -/
def rounded? : Number → Option Number
  | .int n => (Binary.ofInt? n).map .binary
  | n => some n

/-- The sum of two numbers of which none is an integer. -/
def addRounded : Number → Number → Number
  | .binary x, .binary y => ((x.add? y).map .binary).getD (.infinity x.negative)
  | .infinity a, .infinity b => if a = b then .infinity a else .nan
  | .nan, _ | _, .nan => .nan
  | .infinity a, _ | _, .infinity a => .infinity a
  | .int _, _ | _, .int _ => .nan

/-- The sum, which is exact for integers. There is none where an integer is too large to become
binary. -/
def add? : Number → Number → Option Number
  | .int a, .int b => some (.int (a + b))
  | m, n => do some (addRounded (← m.rounded?) (← n.rounded?))

end Number

end RamlSchema

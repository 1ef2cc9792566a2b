/-!
# Binary numbers

Numbers of at most fifty-three binary digits within a range of exponents. A quotient becomes the
nearest of them, and the one with an even mantissa where two are equally near.
-/

namespace RamlSchema

/-- The nearest integer to a quotient, and the even one of two that are equally near. -/
def roundDiv (numerator denominator : Nat) : Nat :=
  let quotient := numerator / denominator
  let twice := 2 * (numerator % denominator)
  if twice < denominator ∨ (twice = denominator ∧ quotient % 2 = 0) then quotient
  else quotient + 1

/-- `mantissa` times two to the `exponent`, with a sign that also a zero has. A mantissa has all its
digits unless the exponent is the least one. -/
structure Binary where
  negative : Bool
  mantissa : Nat
  exponent : Int
  deriving DecidableEq, Repr

namespace Binary

def leastExponent : Int := -1074

def greatestExponent : Int := 971

def fullMantissa : Nat := Nat.pow 2 52

def zero : Binary := ⟨false, 0, leastExponent⟩

def negate (x : Binary) : Binary := { x with negative := !x.negative }

/-- The digits with their sign, which a zero loses. -/
def signed (x : Binary) : Int := if x.negative then -x.mantissa else x.mantissa

/-- Numerator and denominator of the number without its sign, in units of two to the `exponent`. -/
def scaled (numerator denominator : Nat) (exponent : Int) : Nat × Nat :=
  (numerator * Nat.pow 2 (-exponent).toNat, denominator * Nat.pow 2 exponent.toNat)

def quotient (x : Binary) : Nat × Nat := scaled x.mantissa 1 (-x.exponent)

/-- The exponent with which the nearest mantissa to a quotient has all its digits, as far as there
are exponents that small. The lengths of both numbers leave two exponents to choose from. -/
def exponentOf (numerator denominator : Nat) : Int :=
  let upper : Int := Nat.log2 numerator - Nat.log2 denominator - 52
  let (n, d) := scaled numerator denominator upper
  let exponent := if n / d < fullMantissa then upper - 1 else upper
  if exponent < leastExponent then leastExponent else exponent

/-- The nearest number to a quotient, unless that is too large. -/
def ofQuotient? (negative : Bool) (numerator denominator : Nat) : Option Binary :=
  let exponent := exponentOf numerator denominator
  let (n, d) := scaled numerator denominator exponent
  let mantissa := roundDiv n d
  let x : Binary :=
    if mantissa = 2 * fullMantissa then ⟨negative, fullMantissa, exponent + 1⟩
    else ⟨negative, mantissa, exponent⟩
  if numerator = 0 then some { zero with negative }
  else if greatestExponent < x.exponent then none
  else some x

def ofInt? (n : Int) : Option Binary := ofQuotient? (n < 0) n.natAbs 1

/-- The nearest number to `digits` times ten to the `exponent`. -/
def ofDecimal? (negative : Bool) (digits : Nat) (exponent : Int) : Option Binary :=
  ofQuotient? negative (digits * Nat.pow 10 exponent.toNat) (Nat.pow 10 (-exponent).toNat)

/-- The nearest number to a sum. A sum of nothing is negative only if both numbers are. -/
def add? (x y : Binary) : Option Binary :=
  let exponent := if x.exponent < y.exponent then x.exponent else y.exponent
  let sum := x.signed * Nat.pow 2 (x.exponent - exponent).toNat +
    y.signed * Nat.pow 2 (y.exponent - exponent).toNat
  let (n, d) := scaled sum.natAbs 1 (-exponent)
  if sum = 0 then some { zero with negative := x.negative && y.negative }
  else ofQuotient? (sum < 0) n d

def truncate (x : Binary) : Int :=
  let (n, d) := x.quotient
  if x.negative then -(n / d : Nat) else (n / d : Nat)

end Binary

end RamlSchema

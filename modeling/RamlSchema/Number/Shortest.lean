import RamlSchema.Number.Binary

/-!
# Shortest decimals

The fewest digits that lead back to a binary number. The grids of decimals are tried from coarse to
fine, and on each grid the two neighbours of the number. Of two that lead back the nearer is taken,
and the even one of two that are equally near.
-/

namespace RamlSchema.Binary

/-- Numerator and denominator of the number without its sign, in units of ten to the `exponent`. -/
def onGrid (x : Binary) (exponent : Int) : Nat × Nat :=
  let (n, d) := x.quotient
  (n * Nat.pow 10 (-exponent).toNat, d * Nat.pow 10 exponent.toNat)

/-- The neighbour on a grid that leads back to the number, if one does. -/
def neighbour? (x : Binary) (exponent : Int) : Option Nat :=
  let (n, d) := x.onGrid exponent
  let nearest := roundDiv n d
  let other := if nearest = n / d then nearest + 1 else n / d
  [nearest, other].find? fun digits => ofDecimal? x.negative digits exponent == some x

/-- An exponent of ten at which the grid is coarser than the number. A binary digit has a little
more than three tenths of a decimal one. -/
def coarsest (x : Binary) : Int :=
  (Nat.log2 x.mantissa + x.exponent + 1) * 30103 / 100000 + 1

/-- The fewest digits that lead back to the number, with their exponent. Seventeen are enough, and
zero has none. -/
def shortest (x : Binary) : Nat × Int :=
  let found := (List.range 20).findSome? fun (step : Nat) =>
    let exponent := x.coarsest - step
    (x.neighbour? exponent).map fun digits => (digits, exponent)
  if x.mantissa = 0 then (0, 0) else found.getD (0, 0)

end RamlSchema.Binary

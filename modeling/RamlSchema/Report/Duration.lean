import RamlSchema.Json.Basic
import RamlSchema.Text.Decimal

/-!
# Durations

Milliseconds, shown with one decimal. The nearest tenth to the binary value is taken, and the even
one of two that are equally near.
-/

namespace RamlSchema.Report

namespace Duration

def total? (durations : List Number) : Option Number := durations.foldlM Number.add? (.int 0)

def tenths (x : Binary) : Nat := roundDiv (10 * x.quotient.1) x.quotient.2

/-- A duration as a report shows it, unless it is an integer that is too large. -/
def text? (duration : Number) : Option String :=
  duration.rounded?.map fun
    | .binary x =>
      (if x.negative then "-" else "") ++ Text.Decimal.nat (tenths x / 10) ++ "." ++
        Text.Decimal.nat (tenths x % 10)
    | .infinity negative => if negative then "-inf" else "inf"
    | .nan | .int _ => "nan"

end Duration

end RamlSchema.Report

import Pagewright.Number.Decimal
import Pagewright.Script.Value

/-!
The text of a value in the markup. Floats are written positionally with the fewest digits that read
back; those without a fraction look like integers.
-/
namespace Pagewright.Markup

/-- Integral floats of at least this size are written like any others. -/
def greatestInteger : Nat := 1000000000000000

/-- The text of a float, never with an exponent. -/
def numberText (d : Double) : String :=
  let sign := if d.negative then "-" else ""
  if d.isNaN then "NaN"
  else if d.isInfinite then sign ++ "inf"
  else match d.toInt? with
    | some i =>
      if i.natAbs < greatestInteger then Decimal.intText i
      else sign ++ (Decimal.shortest d.magnitude).plain
    | none => sign ++ (Decimal.shortest d.magnitude).plain

def valueText? : Script.Value → Option String
  | .boolean b => some (if b then "true" else "false")
  | .integer i => some (Decimal.intText i.toInt)
  | .float d => some (numberText d)
  | .string s => some s.toText
  | _ => none

end Pagewright.Markup

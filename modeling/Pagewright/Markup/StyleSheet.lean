import Pagewright.Markup.ValueText
import Pagewright.Script.Table

/-! Style sheets: a table of rules is written as blocks in the order of their selectors. -/
namespace Pagewright.Markup.StyleSheet

open Script (Value Table)

def block (selector rules : String) : String :=
  selector ++ " \x7b " ++ rules ++ " \x7d"

/-- The block of a pair whose key is a string; a value without a text gives no rules. -/
def block? : Value × Value → Option String
  | (.string selector, rules) => some (block selector.toText ((valueText? rules).getD ""))
  | _ => none

def ofPairs (pairs : List (Value × Value)) : String :=
  "\n".intercalate ((pairs.filterMap block?).mergeSort fun a b => a ≤ b)

/-- The style sheet of a call: of a table its blocks, of anything else its text, if it has one. -/
def render? (tables : Nat → Table) (args : List Value) : Option String :=
  match args with
  | [] => none
  | .table r :: _ => some (ofPairs (tables r).pairs)
  | v :: _ => valueText? v

end Pagewright.Markup.StyleSheet

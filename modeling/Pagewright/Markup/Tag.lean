import Pagewright.Markup.Arguments
import Pagewright.Markup.Component
import Pagewright.Markup.StyleSheet

/-! Calls of the names that a registry binds. -/
namespace Pagewright.Markup

open Script (Value Eval Callback)

/-- The value of a call of a bound name: the markup, or nil for a style sheet without text. -/
def Binding.call (callback : Callback) (name : String) (b : Binding) (args : List Value) :
    Eval Value := do
  let tables := (← get).heap.table
  match b with
  | .element spec => return Value.ofText (spec.render tables args)
  | .custom loader => return Value.ofText (← Component.render callback name loader args.head?)
  | .styleSheet => return ((StyleSheet.render? tables args).map Value.ofText).getD .nil

end Pagewright.Markup

/-! Why a page cannot be rendered. -/
namespace Pagewright.Page

inductive RenderFault where
  /-- A context could not be made. -/
  | setup
  /-- The script is none, or running it raised an error. -/
  | execution
  /-- The value has no text. -/
  | emptyOutput
  /-- A function where the page itself was expected. -/
  | functionForPage
  /-- No function where one was expected. -/
  | noFunction
  /-- Calling the function raised an error. -/
  | call
  /-- The script took more steps than are counted. -/
  | unfinished
deriving DecidableEq, Repr

namespace RenderFault

def message : RenderFault → String
  | setup => "could not set up the script context"
  | execution => "template execution error"
  | emptyOutput => "template did not produce any output"
  | functionForPage => "template returned a function instead of HTML"
  | noFunction => "template must return a function"
  | call => "failed to call template function"
  | unfinished => "template did not end"

/-- The kind of a fault: what the script returned is one, whichever way it is wrong. -/
def kindName : RenderFault → String
  | setup => "Setup"
  | execution => "Execution"
  | emptyOutput => "EmptyOutput"
  | functionForPage | noFunction => "ScriptContract"
  | call => "Call"
  | unfinished => "Unfinished"

/-- Whether the script itself failed, as opposed to what it returned. -/
def isScriptFailure : RenderFault → Bool
  | execution | call => true
  | _ => false

def hasSource : RenderFault → Bool
  | setup | execution | call => true
  | _ => false

end RenderFault

end Pagewright.Page

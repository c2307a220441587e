import Pagewright.Server.Environment

/-! Whether it is reported how long parts of the work take. -/
namespace Pagewright.Server

structure Timing where
  enabled : Bool
deriving DecidableEq, Repr

namespace Timing

/-- As the variable for it says; one that cannot be read says no. -/
def ofEnvironment (env : Environment) : Timing :=
  match env.flag "TIME_GUARD" false with
  | .ok enabled => ⟨enabled⟩
  | .error _ => ⟨false⟩

def after (t : Timing) : Option Bool → Timing
  | some enabled => ⟨enabled⟩
  | none => t

end Timing

end Pagewright.Server

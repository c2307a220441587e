/-! What is reported while pages are served. -/
namespace Pagewright

inductive Level where
  | info | warn | error
deriving DecidableEq, Repr

namespace Level

def name : Level → String
  | info => "info"
  | warn => "warn"
  | error => "error"

end Level

structure LogRecord where
  level : Level
  text : String
deriving DecidableEq, Repr

namespace LogRecord

def line (r : LogRecord) : String := r.level.name ++ ": " ++ r.text

end LogRecord

end Pagewright

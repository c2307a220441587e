import Pagewright.Text.Percent
import Pagewright.Text.Split

/-! Requests, and the segments of their paths. -/
namespace Pagewright.Http

/-- A request by its method and the target as it was sent. -/
structure Request where
  method : String
  target : String
deriving DecidableEq, Repr

def pathSegments (path : String) : List String :=
  (Text.split '/' path).filter fun s => !s.isEmpty

namespace Request

/-- The path: the target before the query, its escapes undone. -/
def path (r : Request) : String :=
  (Text.percentDecode ((Bytes.ofText r.target).takeWhile (· ≠ 63))).toText

def segments (r : Request) : List String := pathSegments r.path

end Request

end Pagewright.Http

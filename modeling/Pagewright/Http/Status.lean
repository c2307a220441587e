/-! The status codes of responses. -/
namespace Pagewright.Http

inductive Status where
  | ok | notFound | internalError | notImplemented
deriving DecidableEq, Repr

namespace Status

def code : Status → Nat
  | ok => 200
  | notFound => 404
  | internalError => 500
  | notImplemented => 501

def ofCode? (code : Nat) : Option Status :=
  [ok, notFound, internalError, notImplemented].find? fun s => s.code = code

def title : Status → String
  | ok => "OK"
  | notFound => "Not Found"
  | internalError => "Internal Server Error"
  | notImplemented => "Not Implemented"

def explanation : Status → String
  | ok => "The request succeeded."
  | notFound => "The server cannot find the requested resource."
  | internalError => "The server has encountered a situation it does not know how to handle."
  | notImplemented => "The request method is not supported by the server and cannot be handled."

def logName : Status → String
  | ok => "OK200"
  | notFound => "NotFound404"
  | internalError => "InternalServerError500"
  | notImplemented => "NotImplemented501"

end Status

end Pagewright.Http

import Pagewright.Http.Status

/-! Responses: pages, scripts and error pages. -/
namespace Pagewright.Http

structure Response where
  status : Status
  headers : List (String × String)
  body : String
deriving DecidableEq, Repr

namespace Response

def contentType : String := "Content-type"

def html (status : Status) (body : String) : Response :=
  ⟨status, [(contentType, "text/html; charset=utf-8")], body⟩

/-- A script, which clients fetch anew each time. -/
def javaScript (body : String) : Response :=
  ⟨.ok, [(contentType, "application/javascript; charset=utf-8"), ("Cache-Control", "no-cache")],
    body⟩

def errorPage (status : Status) : Response :=
  let title := status.title
  .html status ("<html><head><title>" ++ title ++ "</title></head><body><h1>" ++ title
    ++ "</h1><p>" ++ status.explanation ++ "</p></body></html>\n")

end Response

end Pagewright.Http

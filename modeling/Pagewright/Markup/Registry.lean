import Pagewright.Markup.Element

/-!
The names that scripts can call, and what each is bound to. The last registration of a name counts.
-/
namespace Pagewright.Markup

inductive Binding where
  | element (spec : ElementSpec)
  /-- A component, by the path of its file. -/
  | custom (loader : String)
  /-- The helper that writes style sheets. -/
  | styleSheet
deriving DecidableEq, Repr

/-- Names with their bindings, each name once, in the order of first registration. -/
structure Registry where
  bindings : List (String × Binding)
deriving DecidableEq, Repr, Inhabited

namespace Registry

def empty : Registry := ⟨[]⟩

/-- Puts a binding in the place of the name's former one, or at the end. -/
def insert (name : String) (b : Binding) : List (String × Binding) → List (String × Binding)
  | [] => [(name, b)]
  | (n, old) :: rest => if n = name then (n, b) :: rest else (n, old) :: insert name b rest

def bind (r : Registry) (name : String) (b : Binding) : Registry := ⟨insert name b r.bindings⟩

def registerElement (r : Registry) (e : ElementSpec) : Registry := r.bind e.name (.element e)

def register (r : Registry) (name : String) (selfClosing : Bool) : Registry :=
  r.registerElement (.ofName name selfClosing)

def registerRawBody (r : Registry) (name : String) : Registry :=
  r.registerElement (ElementSpec.ofName name false).withRawBody

def registerCustom (r : Registry) (name loader : String) : Registry := r.bind name (.custom loader)

def registerStyleHelper (r : Registry) (name : String) : Registry := r.bind name .styleSheet

/-- The standard elements, with `Style` as the helper for style sheets. -/
def standard : Registry :=
  (ElementSpec.standard.foldl registerElement empty).registerStyleHelper "Style"

def get? (r : Registry) (name : String) : Option Binding := r.bindings.lookup name

def names (r : Registry) : List String := r.bindings.map (·.1)

def size (r : Registry) : Nat := r.bindings.length

def isEmpty (r : Registry) : Bool := r.bindings.isEmpty

end Registry

end Pagewright.Markup

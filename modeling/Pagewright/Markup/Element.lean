import Pagewright.Text.Casing

/-!
Elements: how one tag is written. The tag name is the element's name in lower case; the root of a
document brings the document type with it.
-/
namespace Pagewright.Markup

structure ElementSpec where
  /-- The name that scripts call. -/
  name : String
  /-- The name in the markup. -/
  tagName : String
  /-- Written without content and closing tag. -/
  selfClosing : Bool
  /-- A single string argument is the body as it stands. -/
  rawBody : Bool
  /-- Written after the document type. -/
  doctype : Bool
deriving DecidableEq, Repr, Inhabited

def doctypeText : String := "<!DOCTYPE html>"

namespace ElementSpec

def ofName (name : String) (selfClosing : Bool) : ElementSpec :=
  let tagName := Text.lowercase name
  ⟨name, tagName, selfClosing, false, tagName = "html"⟩

def withRawBody (e : ElementSpec) : ElementSpec := { e with rawBody := true }

/-- The element without arguments, never with the document type. -/
def emptyHtml (e : ElementSpec) : String :=
  if e.selfClosing then "<" ++ e.tagName ++ ">"
  else "<" ++ e.tagName ++ "></" ++ e.tagName ++ ">"

/-- The element with attributes and content; a self-closing one has no content. -/
def html (e : ElementSpec) (attributes content : String) : String :=
  if e.selfClosing then "<" ++ e.tagName ++ attributes ++ ">"
  else (if e.doctype then doctypeText else "")
    ++ "<" ++ e.tagName ++ attributes ++ ">" ++ content ++ "</" ++ e.tagName ++ ">"

def pairedNames : List String :=
  ["Html", "Head", "Body", "Title", "Div", "P", "Span", "A", "H1", "H2", "H3", "H4", "H5", "H6",
   "Ul", "Ol", "Li", "Table", "Tr", "Td", "Form", "Button", "Label", "Style", "Template"]

def voidNames : List String := ["Img", "Input", "Link", "Meta", "Br", "Hr"]

/-- The standard elements. The body of a script is not markup. -/
def standard : List ElementSpec :=
  pairedNames.map (ofName · false) ++ voidNames.map (ofName · true)
    ++ [(ofName "Script" false).withRawBody]

end ElementSpec

end Pagewright.Markup

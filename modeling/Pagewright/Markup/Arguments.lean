import Pagewright.Markup.Element
import Pagewright.Markup.ValueText
import Pagewright.Script.Table

/-!
The arguments of a tag call, as attributes and content. Attributes are kept in the order of their
keys, so the markup does not show in which order a table is traversed.
-/
namespace Pagewright.Markup

open Script (Value Table)

structure Arguments where
  /-- Keys and values; the keys ascend. -/
  attributes : List (String × String)
  content : List String
deriving DecidableEq, Repr, Inhabited

namespace Arguments

def insertAttribute (key value : String) : List (String × String) → List (String × String)
  | [] => [(key, value)]
  | (k, v) :: rest =>
    if key < k then (key, value) :: (k, v) :: rest
    else if k < key then (k, v) :: insertAttribute key value rest
    else (key, value) :: rest

/-- The attribute that a pair of a table gives: its key is a string and its value has a text. -/
def attribute? : Value × Value → Option (String × String)
  | (.string key, value) => (valueText? value).map fun text => (key.toText, text)
  | _ => none

def collect (pairs : List (Value × Value)) : List (String × String) :=
  (pairs.filterMap attribute?).foldl (fun as (k, v) => insertAttribute k v as) []

/-- What an argument adds to the content: a table the texts of its list, a scalar its own. -/
def contribution (tables : Nat → Table) : Value → List String
  | .table r => (tables r).sequence.filterMap valueText?
  | v => (valueText? v).toList

def hasStringKey (t : Table) : Bool :=
  t.pairs.any fun
    | (.string _, _) => true
    | _ => false

/-- Whether a table holds attributes, given the arguments after it: another table follows, or it has
a key that is a string. -/
def holdsAttributes (t : Table) : List Value → Bool
  | .table _ :: _ => true
  | _ => hasStringKey t

def classify (tables : Nat → Table) (args : List Value) : Arguments :=
  match args with
  | .table r :: rest =>
    if holdsAttributes (tables r) rest then
      ⟨collect (tables r).pairs, rest.flatMap (contribution tables)⟩
    else ⟨[], args.flatMap (contribution tables)⟩
  | _ => ⟨[], args.flatMap (contribution tables)⟩

def attributeHtml : String × String → String
  | (key, value) => " " ++ key ++ "=\"" ++ value ++ "\""

def attributesHtml (a : Arguments) : String :=
  String.join (a.attributes.map attributeHtml)

def html (a : Arguments) (e : ElementSpec) : String :=
  e.html a.attributesHtml (String.join a.content)

end Arguments

/-- The element that a call with some arguments writes. A call without any never writes a document
type, and a raw body is written as it stands. -/
def ElementSpec.render (e : ElementSpec) (tables : Nat → Table) (args : List Value) : String :=
  match args with
  | [] => e.emptyHtml
  | [.string body] =>
    if e.rawBody then "<" ++ e.tagName ++ ">" ++ body.toText ++ "</" ++ e.tagName ++ ">"
    else (Arguments.classify tables args).html e
  | _ => (Arguments.classify tables args).html e

end Pagewright.Markup

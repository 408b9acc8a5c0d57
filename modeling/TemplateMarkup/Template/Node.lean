import TemplateMarkup.Source.Span

/-! Every node and every attribute has an id, its number in document order. The blanks before it lie between
`outerStart` and the start of its span. -/

namespace TemplateMarkup

/-- An attribute of a tag. A value that the text ends in has a start but no text. -/
structure Attribute where
  id : Nat
  owner : Nat
  outerStart : Nat
  span : Span
  name : Text
  value : Option Text
  valueStart : Option Nat
deriving DecidableEq, Repr

/-- What a node is. An end tag without a closing bracket has no name. -/
inductive NodeKind where
  | root
  | startTag (name : Text) (attributes : List Attribute)
  | selfClosingTag (name : Text) (attributes : List Attribute)
  | endTag (name : Option Text)
  | text
  | comment
  | interpolation
deriving DecidableEq, Repr

def rootName : Text :=
  "__root__".toList

namespace NodeKind

def name? : NodeKind → Option Text
  | root => some rootName
  | startTag name _ => some name
  | selfClosingTag name _ => some name
  | endTag name => name
  | text => none
  | comment => none
  | interpolation => none

def attributes : NodeKind → List Attribute
  | startTag _ attributes => attributes
  | selfClosingTag _ attributes => attributes
  | _ => []

def isContainer : NodeKind → Bool
  | root => true
  | startTag _ _ => true
  | _ => false

def isTag : NodeKind → Bool
  | startTag _ _ => true
  | selfClosingTag _ _ => true
  | endTag _ => true
  | _ => false

def isOpeningTag : NodeKind → Bool
  | startTag _ _ => true
  | selfClosingTag _ _ => true
  | _ => false

end NodeKind

structure Head where
  id : Nat
  parent : Option Nat
  outerStart : Nat
  span : Span
  kind : NodeKind
deriving DecidableEq, Repr

structure Node where
  head : Head
  children : List Node
deriving Repr

namespace Node

def kind (n : Node) : NodeKind :=
  n.head.kind

def attributes (n : Node) : List Attribute :=
  n.head.kind.attributes

def name? (n : Node) : Option Text :=
  n.head.kind.name?

end Node

end TemplateMarkup

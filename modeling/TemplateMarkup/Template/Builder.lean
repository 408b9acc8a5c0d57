import TemplateMarkup.Markup.Fault
import TemplateMarkup.Markup.Stats
import TemplateMarkup.Template.Placement

/-! Only an end tag with the name of the innermost open tag closes it; any other end tag becomes content, and is
a fault only inside a nameless tag. What is open at the end is closed there, and was not matched. -/

namespace TemplateMarkup

open Markup (Item Fault FaultKind)

structure Frame where
  head : Head
  -- The last child comes first.
  children : List Node
deriving Repr

namespace Frame

def add (f : Frame) (n : Node) : Frame :=
  { f with children := n :: f.children }

def addAll (f : Frame) (ns : List Node) : Frame :=
  { f with children := ns ++ f.children }

def node (f : Frame) : Node :=
  ⟨f.head, f.children.reverse⟩

def name (f : Frame) : Text :=
  (f.head.kind.name?).getD []

end Frame

def rootHead : Head :=
  { id := 0, parent := none, outerStart := 0, span := Span.empty 0, kind := .root }

/-- A tree up to some offset. The open tags are listed innermost first, the faults last first. -/
structure Builder where
  offset : Nat
  nextId : Nat
  opened : List Frame
  root : Frame
  faults : List Fault
deriving Repr

namespace Builder

def start : Builder :=
  { offset := 0, nextId := 1, opened := [], root := ⟨rootHead, []⟩, faults := [] }

def current (b : Builder) : Frame :=
  b.opened.headD b.root

def append (b : Builder) (n : Node) : Builder :=
  match b.opened with
  | [] => { b with root := b.root.add n }
  | f :: rest => { b with opened := f.add n :: rest }

def pop (b : Builder) : Builder :=
  match b.opened with
  | [] => b
  | f :: rest => { b with opened := rest }.append f.node

def close (b : Builder) (name : Option Text) (span : Span) : Builder :=
  let expected := b.current.name
  if name = some expected then b.pop
  else if expected.isEmpty || Markup.isVoid expected then
    let kind := if b.opened.isEmpty then .unexpectedClosingTag else .mismatchedClosingTag expected
    { b with faults := ⟨kind, span⟩ :: b.faults }
  else b

def add (b : Builder) (item : Item) : Builder :=
  let head := item.head b.nextId b.current.head.id b.offset
  let next := { b with
    offset := b.offset + Text.size item.chars
    nextId := b.nextId + 1 + item.piece.attributeCount
    faults := (item.faults b.offset).reverse ++ b.faults }
  match head.kind with
  | .startTag _ _ => { next with opened := ⟨head, []⟩ :: next.opened }
  | .endTag name => (next.append ⟨head, []⟩).close name head.span
  | _ => next.append ⟨head, []⟩

def tree (b : Builder) : Node :=
  let outermost := b.opened.foldl (fun inner f => some (f.addAll inner.toList).node) none
  (b.root.addAll outermost.toList).node

def allFaults (b : Builder) : List Fault :=
  b.faults.reverse ++ b.opened.map fun f => ⟨.unmatchedOpeningTag, f.head.span⟩

end Builder

structure Template where
  source : Text
  root : Node
  faults : List Markup.Fault
  stats : Markup.Stats
deriving Repr

def parse (source : Text) : Template :=
  let found := Markup.items source
  let built := found.foldl Builder.add Builder.start
  ⟨source, built.tree, built.allFaults, Markup.Stats.ofItems found⟩

end TemplateMarkup

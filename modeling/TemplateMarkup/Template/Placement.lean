import TemplateMarkup.Markup.Item
import TemplateMarkup.Template.Node

/-! The nodes of items at their places. A nameless tag covers no bytes, though it was written with some. -/

namespace TemplateMarkup.Markup

namespace WrittenValue

def text? : WrittenValue → Option Text
  | quoted _ run => if run.closed then some run.body else none
  | bare text ended => if ended then some text else none
  | missing => none

def textStart? (pos : Nat) : WrittenValue → Option Nat
  | quoted _ _ => some (pos + 1)
  | bare _ _ => some pos
  | missing => none

end WrittenValue

namespace WrittenAttribute

def place (id owner pos : Nat) (a : WrittenAttribute) : Attribute :=
  let start := pos + Text.size a.blank
  let nameStop := start + Text.size a.name
  match a.assignment with
  | none =>
    -- The blanks behind a name alone are read with it, and are outside the span.
    { id := Word.wrap id, owner := Word.wrap owner, outerStart := Word.wrap pos
      span := Span.ofOffsets start nameStop, name := a.name, value := none, valueStart := none }
  | some ⟨blank, value⟩ =>
    let valuePos := nameStop + Text.size a.gap + 1 + Text.size blank
    { id := Word.wrap id, owner := Word.wrap owner, outerStart := Word.wrap pos
      span := Span.ofOffsets start (valuePos + Text.size value.chars), name := a.name
      value := value.text?, valueStart := (value.textStart? valuePos).map Word.wrap }

def placeAll (owner id pos : Nat) : List WrittenAttribute → List Attribute
  | [] => []
  | a :: rest => a.place id owner pos :: placeAll owner (id + 1) (pos + Text.size a.chars) rest

end WrittenAttribute

namespace Piece

def attributeCount : Piece → Nat
  | tag written => written.attributes.length
  | _ => 0

def extent : Piece → Nat
  | nameless _ => 0
  | piece => Text.size piece.chars

def kind (id start : Nat) : Piece → NodeKind
  | comment _ => .comment
  | endTag run => .endTag (if run.closed then some run.body else none)
  | interpolation _ => .interpolation
  | text _ => .text
  | nameless _ => .startTag [] []
  | tag written =>
    let attributes :=
      WrittenAttribute.placeAll id (id + 1) (start + 1 + Text.size written.name) written.attributes
    if written.isSelfClosing then .selfClosingTag written.name attributes
    else .startTag written.name attributes

end Piece

def Item.head (id parent pos : Nat) (item : Item) : Head :=
  let start := pos + Text.size item.blank
  { id := Word.wrap id, parent := some parent, outerStart := Word.wrap pos
    span := Span.ofOffsets start (start + item.piece.extent), kind := item.piece.kind id start }

end TemplateMarkup.Markup

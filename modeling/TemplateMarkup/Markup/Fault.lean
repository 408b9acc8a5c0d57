import TemplateMarkup.Markup.Item
import TemplateMarkup.Source.Span

/-! The faults that a piece of markup has by itself. Those of tags that do not match come from the tree. -/

namespace TemplateMarkup.Markup

inductive FaultKind where
  | invalidTagName
  | invalidTagEnd
  | invalidSelfClosing (name : Text)
  | incompleteAttributeValue
  | unrecognizedAttributeValue
  | incompleteClosingTag
  | unclosedInterpolation
  | mismatchedClosingTag (expected : Text)
  | unexpectedClosingTag
  | unmatchedOpeningTag
deriving DecidableEq, Repr

namespace FaultKind

def code : FaultKind → Text
  | invalidTagName => "invalid-tag-name".toList
  | invalidTagEnd => "invalid-tag-end".toList
  | invalidSelfClosing _ => "invalid-self-closing".toList
  | incompleteAttributeValue => "incomplete-attribute-value".toList
  | unrecognizedAttributeValue => "unrecognized-attribute-value".toList
  | incompleteClosingTag => "incomplete-closing-tag".toList
  | unclosedInterpolation => "unclosed-interpolation".toList
  | mismatchedClosingTag _ => "mismatched-closing-tag".toList
  | unexpectedClosingTag => "unexpected-closing-tag".toList
  | unmatchedOpeningTag => "unmatched-opening-tag".toList

def message : FaultKind → Text
  | invalidTagName => "Invalid tag name".toList
  | invalidTagEnd => "Invalid tag end".toList
  | invalidSelfClosing name => name ++ " cannot be used as self closing tag".toList
  | incompleteAttributeValue => "Incomplete attribute value".toList
  | unrecognizedAttributeValue => "Unrecognized attribute value".toList
  | incompleteClosingTag => "Incomplete closing tag".toList
  | unclosedInterpolation => "Unclosed interpolation".toList
  | mismatchedClosingTag expected => "Expected closing tag named \"".toList ++ expected ++ ['"']
  | unexpectedClosingTag => "Unexpected closing tag".toList
  | unmatchedOpeningTag => "Unmatched opening tag".toList

end FaultKind

structure Fault where
  kind : FaultKind
  span : Span
deriving DecidableEq, Repr

namespace WrittenValue

def isCutOff : WrittenValue → Bool
  | quoted _ run => !run.closed
  | bare _ ended => !ended
  | missing => false

end WrittenValue

namespace WrittenAttribute

def fault? (pos : Nat) (a : WrittenAttribute) : Option Fault :=
  let stop := pos + Text.size a.chars
  match a.assignment with
  | none => none
  | some ⟨_, .missing⟩ => some ⟨.unrecognizedAttributeValue, Span.ofOffsets stop stop⟩
  | some ⟨_, value⟩ =>
    if value.isCutOff then
      some ⟨.incompleteAttributeValue, Span.ofOffsets (pos + Text.size a.blank) stop⟩
    else none

def faults (pos : Nat) : List WrittenAttribute → List Fault
  | [] => []
  | a :: rest => (a.fault? pos).toList ++ faults (pos + Text.size a.chars) rest

end WrittenAttribute

namespace WrittenTag

def faults (start : Nat) (tag : WrittenTag) : List Fault :=
  let span := Span.ofOffsets start (start + 1 + Text.size tag.chars)
  WrittenAttribute.faults (start + 1 + Text.size tag.name) tag.attributes ++
    match tag.ending with
    | .slashed => if isVoid tag.name then [] else [⟨.invalidSelfClosing tag.name, span⟩]
    | .plain => []
    | .missing => [⟨.invalidTagEnd, span⟩]

end WrittenTag

namespace Piece

def faults (start : Nat) (piece : Piece) : List Fault :=
  let span := Span.ofOffsets start (start + Text.size piece.chars)
  match piece with
  | comment _ => []
  | endTag run => if run.closed then [] else [⟨.incompleteClosingTag, span⟩]
  | interpolation run => if run.closed then [] else [⟨.unclosedInterpolation, span⟩]
  | text _ => []
  | nameless _ => [⟨.invalidTagName, span⟩]
  | tag written => written.faults start

end Piece

def Item.faults (pos : Nat) (item : Item) : List Fault :=
  item.piece.faults (pos + Text.size item.blank)

end TemplateMarkup.Markup

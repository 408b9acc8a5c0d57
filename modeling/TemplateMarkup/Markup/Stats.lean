import TemplateMarkup.Markup.Item

namespace TemplateMarkup.Markup

/-- Counts of pieces. Nameless tags count as opening tags, void elements as self-closing ones. -/
structure Stats where
  openTags : Nat
  closeTags : Nat
  selfClosingTags : Nat
  attributes : Nat
  comments : Nat
  interpolations : Nat
  texts : Nat
deriving DecidableEq, Repr

namespace Stats

def zero : Stats :=
  ⟨0, 0, 0, 0, 0, 0, 0⟩

def add (s t : Stats) : Stats :=
  ⟨s.openTags + t.openTags, s.closeTags + t.closeTags, s.selfClosingTags + t.selfClosingTags,
    s.attributes + t.attributes, s.comments + t.comments, s.interpolations + t.interpolations,
    s.texts + t.texts⟩

def total (s : Stats) : Nat :=
  s.openTags + s.closeTags + s.selfClosingTags + s.attributes + s.comments + s.interpolations +
    s.texts

end Stats

def Piece.stats : Piece → Stats
  | comment _ => { Stats.zero with comments := 1 }
  | endTag _ => { Stats.zero with closeTags := 1 }
  | interpolation _ => { Stats.zero with interpolations := 1 }
  | text _ => { Stats.zero with texts := 1 }
  | nameless _ => { Stats.zero with openTags := 1 }
  | tag written =>
    if written.isSelfClosing then
      { Stats.zero with selfClosingTags := 1, attributes := written.attributes.length }
    else { Stats.zero with openTags := 1, attributes := written.attributes.length }

def Stats.ofItems (found : List Item) : Stats :=
  found.foldl (fun s item => s.add item.piece.stats) zero

end TemplateMarkup.Markup

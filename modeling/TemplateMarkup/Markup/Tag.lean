import TemplateMarkup.Markup.Attribute

namespace TemplateMarkup.Markup

def voidNames : List String :=
  ["area", "base", "br", "col", "embed", "hr", "img", "input", "link", "meta", "param", "source",
    "track", "wbr"]

/-- The name of an element that never has content, in lower case as listed. -/
def isVoid (name : Text) : Bool :=
  voidNames.any (·.toList == name)

inductive Ending where
  | slashed
  | plain
  | missing
deriving DecidableEq, Repr

namespace Ending

def read : Text → Ending × Text
  | '/' :: '>' :: rest => (.slashed, rest)
  | '>' :: rest => (.plain, rest)
  | rest => (.missing, rest)

def chars : Ending → Text
  | slashed => ['/', '>']
  | plain => ['>']
  | missing => []

theorem chars_append (cs : Text) : (read cs).1.chars ++ (read cs).2 = cs := by
  unfold read
  split <;> rfl

end Ending

structure WrittenTag where
  name : Text
  attributes : List WrittenAttribute
  gap : Text
  ending : Ending
deriving DecidableEq, Repr

namespace WrittenTag

def chars (tag : WrittenTag) : Text :=
  tag.name ++ tag.attributes.flatMap WrittenAttribute.chars ++ tag.gap ++ tag.ending.chars

def read (first : Char) (cs : Text) : WrittenTag × Text :=
  let (attributes, rest) := WrittenAttribute.readAll (cs.dropWhile isNameChar)
  let (gap, rest) := Text.cutBlank rest
  let (ending, rest) := Ending.read rest
  (⟨first :: cs.takeWhile isNameChar, attributes, gap, ending⟩, rest)

theorem chars_append (first : Char) (cs : Text) :
    (read first cs).1.chars ++ (read first cs).2 = first :: cs := by
  simp [read, chars, Ending.chars_append, Text.cutBlank_append, WrittenAttribute.chars_readAll]

def isSelfClosing (tag : WrittenTag) : Bool :=
  tag.ending == .slashed || isVoid tag.name

end WrittenTag

end TemplateMarkup.Markup

import TemplateMarkup.Text.Basic

namespace TemplateMarkup.Glob

/-- A part of a pattern. `leading` is nothing, a slash or any path up to a slash; `between` is a
slash, or any path between two slashes; `trailing` is a slash and any path. A choice without
alternatives matches nothing but the empty path. -/
inductive Part where
  | letter (c : Char)
  | anyByte
  | anyRun
  | leading
  | between
  | trailing
  | oneOf (negated : Bool) (ranges : List (Char × Char))
  | choice (alternatives : List (List Part))
deriving Repr

def Part.isEmptyChoice : Part → Bool
  | choice [] => true
  | _ => false

inductive Fault where
  | unclosedClass
  | invalidRange (first last : Char)
  | unclosedChoice
  | unopenedChoice
  | danglingEscape
deriving DecidableEq, Repr

def Fault.message : Fault → Text
  | unclosedClass => "unclosed character class; missing ']'".toList
  | invalidRange first last =>
    "invalid range; '".toList ++ [first] ++ "' > '".toList ++ [last, '\'']
  | unclosedChoice =>
    "unclosed alternate group; missing '\x7d' (maybe escape '\x7b' with '[\x7b]'?)".toList
  | unopenedChoice =>
    "unopened alternate group; missing '\x7b' (maybe escape '\x7d' with '[\x7d]'?)".toList
  | danglingEscape => "dangling '\\'".toList

end TemplateMarkup.Glob

import TemplateMarkup.Proofs.Glob.FileName
import TemplateMarkup.Proofs.Glob.IgnoreSet
import TemplateMarkup.Proofs.Glob.Languages
import TemplateMarkup.Proofs.Text.Bytes

namespace TemplateMarkup.Glob

open Project

def IsPlain (c : Char) : Prop :=
  c ∉ ['?', '*', '[', '{', '}', ',', '\\']

instance : DecidablePred IsPlain := fun c => inferInstanceAs (Decidable (c ∉ _))

namespace Draft

variable {c : Char} {cs rest : Text} {d : Draft} {previous : Option Char}

end Draft

def inside (name : Text) : Text :=
  "**/".toList ++ name ++ "/**".toList

variable {name path : Text}

section Pattern

variable {pattern : Text} {parts : List Part}

end Pattern

namespace IgnoreSet

variable {patterns others : List Text} {set set' : IgnoreSet}

end IgnoreSet

end TemplateMarkup.Glob

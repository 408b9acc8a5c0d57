import TemplateMarkup.Text.Lowercase

/-! Names of several words in two spellings, and names as selectors compare them. -/

namespace TemplateMarkup.Naming

def isWordChar (c : Char) : Bool :=
  c.isAlphanum || c == '_'

def toCamel : Text → Text
  | '-' :: c :: rest =>
    if isWordChar c then c.toUpper :: toCamel rest else '-' :: toCamel (c :: rest)
  | c :: rest => c :: toCamel rest
  | [] => []

def hyphenate : Text → Text
  | c :: d :: rest =>
    if c.isLower && d.isUpper then c :: '-' :: hyphenate (d :: rest) else c :: hyphenate (d :: rest)
  | cs => cs

def toKebab (name : Text) : Text :=
  Text.lowercase (hyphenate name)

def dataMark : Text :=
  ['d', 'a', 't', 'a', '-']

def bare (name : Text) : Text :=
  if dataMark.isPrefixOf name then name.drop dataMark.length else name

/-- The name that a selector compares. Of a name that stops inside `data-` nothing is left. -/
def short (name : Text) : Text :=
  if name.isPrefixOf dataMark then [] else bare name

end TemplateMarkup.Naming

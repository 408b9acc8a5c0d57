import TemplateMarkup.Glob.Pattern

/-! Patterns that ask for a file: a name after two stars, or an extension at the end. A path to a parent
directory leads to no file, and so no such pattern matches it. -/

namespace TemplateMarkup.Glob

namespace Part

def isLetter : Part → Bool
  | letter _ => true
  | _ => false

def isNameLetter : Part → Bool
  | letter c => c != '/'
  | _ => false

def isExtensionLetter : Part → Bool
  | letter c => c != '/' && c != '.'
  | _ => false

end Part

def isExtension : List Part → Bool
  | .letter '.' :: rest => rest.all Part.isExtensionLetter
  | _ => false

def endsInExtension : List Part → Bool
  | [] => false
  | part :: rest => isExtension (part :: rest) || endsInExtension rest

/-- Letters after a run of any bytes ask for a file when they are an extension and nothing else:
longer ones are the end of a path. -/
def asksAfterRun (rest : List Part) : Bool :=
  if rest.all Part.isLetter then isExtension rest else endsInExtension rest

def asksForFile : List Part → Bool
  | .leading :: .anyRun :: rest => asksAfterRun rest
  | .anyRun :: rest => asksAfterRun rest
  | .leading :: rest =>
    if rest.all Part.isLetter then !rest.isEmpty && rest.all Part.isNameLetter
    else endsInExtension rest
  | parts => !parts.all Part.isLetter && endsInExtension parts

def afterLastSlash (path : Text) : Text :=
  (path.reverse.takeWhile (· ≠ '/')).reverse

def leadsToFile (path : Text) : Bool :=
  afterLastSlash path != ['.', '.']

end TemplateMarkup.Glob

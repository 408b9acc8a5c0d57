import TemplateMarkup.Glob.Matching
import TemplateMarkup.Glob.Reading

namespace TemplateMarkup.Glob

structure InvalidPattern where
  pattern : Text
  fault : Fault
deriving DecidableEq, Repr

def InvalidPattern.message (e : InvalidPattern) : Text :=
  "invalid glob pattern: error parsing glob '".toList ++ e.pattern ++ "': ".toList ++
    e.fault.message

structure IgnoreSet where
  globs : List (List Part)
deriving Repr

def defaultPatterns : List Text :=
  ["**/node_modules/**".toList, "**/dist/**".toList]

namespace IgnoreSet

def readAll : List Text → Except InvalidPattern (List (List Part))
  | [] => .ok []
  | pattern :: others =>
    match read pattern with
    | .error fault => .error ⟨pattern, fault⟩
    | .ok parts => (readAll others).map (parts :: ·)

/-- Joins patterns that are read. All that can be wrong with a pattern shows when it is read, so
this does not fail. -/
def build (globs : List (List Part)) : IgnoreSet :=
  ⟨globs⟩

def ofPatterns (patterns : List Text) : Except InvalidPattern IgnoreSet :=
  (readAll (patterns ++ defaultPatterns)).map build

def ignores (set : IgnoreSet) (path : Text) : Bool :=
  set.globs.any (isMatch · path)

end IgnoreSet

end TemplateMarkup.Glob

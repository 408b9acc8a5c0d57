import TemplateMarkup.Text.Basic

namespace TemplateMarkup.Project.Path

def components : Text → List Text
  | [] => [[]]
  | c :: rest =>
    if c = '/' then [] :: components rest
    else
      match components rest with
      | [] => [[c]]
      | name :: others => (c :: name) :: others

def ofNames : List Text → Text
  | [] => []
  | [name] => name
  | name :: others => name ++ '/' :: ofNames others

def join (root below : Text) : Text :=
  if root.isEmpty || root.getLast? = some '/' then root ++ below else root ++ '/' :: below

/-- Empty parts and points lead nowhere. -/
def isIdle (part : Text) : Bool :=
  part.isEmpty || part = ['.']

def trim (parts : List Text) : List Text :=
  ((parts.dropWhile isIdle).reverse.dropWhile isIdle).reverse

def behind? : List Text → List Text → Option (List Text)
  | [], parts => some parts
  | _ :: _, [] => none
  | name :: names, part :: parts =>
    if isIdle part then behind? (name :: names) parts
    else if part = name then behind? names parts
    else none

/-- What a path holds behind the names of `root`, if it begins with them. -/
def strip? (root path : Text) : Option Text :=
  if root.isEmpty then some path
  -- A first part that is empty or a point says where a path starts, and is not idle.
  else if path.isEmpty || (components root).head? ≠ (components path).head? then none
  else
    let names := (components root).tail.filter (!isIdle ·)
    (behind? names (components path).tail).map fun parts => ofNames (trim parts)

def nameLe (a b : Text) : Bool :=
  decide (Text.bytes a ≤ Text.bytes b)

end TemplateMarkup.Project.Path

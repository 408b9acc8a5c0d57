import TemplateMarkup.Project.Path

namespace TemplateMarkup.Project

inductive FileTree where
  | file (bytes : ByteArray)
  | directory (entries : List (Text × FileTree))

namespace FileTree

def empty : FileTree :=
  directory []

def entry? (t : FileTree) (name : Text) : Option FileTree :=
  match t with
  | file _ => none
  | directory entries => entries.lookup name

def isDirectory : FileTree → Bool
  | file _ => false
  | directory _ => true

/-- Goes on from the tree `here`, which is below the trees `above`, the nearest one first. -/
def follow (above : List FileTree) (here : FileTree) : List Text → Option FileTree
  | [] => some here
  | name :: others =>
    if !here.isDirectory then none
    else if name.isEmpty || name = ['.'] then follow above here others
    else if name = ['.', '.'] then
      match above with
      | [] => none
      | parent :: further => follow further parent others
    else
      match here.entry? name with
      | none => none
      | some next => follow (here :: above) next others

/-- What stands at a path below a directory. Paths from the top of a file system lead nowhere. -/
def find? (top : FileTree) (path : Text) : Option FileTree :=
  if path.isEmpty || path.head? = some '/' then none else follow [] top (Path.components path)

def put (t : FileTree) (names : List Text) (content : FileTree) : FileTree :=
  match names with
  | [] => content
  | name :: others =>
    let entries := match t with
      | file _ => []
      | directory entries => entries
    let inner := ((entries.lookup name).getD empty).put others content
    directory (entries.filter (·.1 != name) ++ [(name, inner)])

mutual

def files : FileTree → List (List Text × ByteArray)
  | file bytes => [([], bytes)]
  | directory entries =>
    ((filesOf entries).mergeSort fun a b => Path.nameLe a.1 b.1).flatMap fun (name, found) =>
      found.map fun (names, bytes) => (name :: names, bytes)

def filesOf : List (Text × FileTree) → List (Text × List (List Text × ByteArray))
  | [] => []
  | (name, t) :: others => (name, t.files) :: filesOf others

end

end FileTree

end TemplateMarkup.Project

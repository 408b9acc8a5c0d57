import TemplateMarkup.Glob.IgnoreSet
import TemplateMarkup.Project.FileTree

/-! A file that is named is a template whatever it is called; below a directory the templates are the files
whose names end as asked and whose paths are not left out. -/

namespace TemplateMarkup.Project

structure TemplateFile where
  path : Text
  displayPath : Text
  bytes : ByteArray

inductive CheckFailure where
  | invalidPattern (cause : Glob.InvalidPattern)
  | pathNotFound (path : Text)
deriving DecidableEq, Repr

def CheckFailure.message : CheckFailure → Text
  | invalidPattern cause => cause.message
  | pathNotFound path => "path not found: ".toList ++ path

def TemplateFile.below (root : Text) (names : List Text) (bytes : ByteArray) : TemplateFile :=
  let path := Path.join root (Path.ofNames names)
  ⟨path, (Path.strip? root path).getD path, bytes⟩

def templatesBelow (root : Text) (t : FileTree) (suffix : Text) (ignored : Glob.IgnoreSet) :
    List TemplateFile :=
  let named := t.files.filter fun (names, _) => suffix.isSuffixOf (names.getLastD [])
  (named.map fun (names, bytes) => TemplateFile.below root names bytes).filter fun file =>
    !ignored.ignores file.displayPath

/-- The templates at a path, where `top` tells what stands at paths. -/
def templatesAt (top : Text → Option FileTree) (root suffix : Text) (ignored : Glob.IgnoreSet) :
    Except CheckFailure (List TemplateFile) :=
  match top root with
  | none => .error (.pathNotFound root)
  | some (.file bytes) => .ok [⟨root, root, bytes⟩]
  | some (.directory entries) => .ok (templatesBelow root (.directory entries) suffix ignored)

def templatesAtAll (top : Text → Option FileTree) (suffix : Text) (ignored : Glob.IgnoreSet) :
    List Text → Except CheckFailure (List TemplateFile)
  | [] => .ok []
  | root :: others =>
    match templatesAt top root suffix ignored with
    | .error e => .error e
    | .ok found => (templatesAtAll top suffix ignored others).map (found ++ ·)

end TemplateMarkup.Project

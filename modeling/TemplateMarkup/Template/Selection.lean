import TemplateMarkup.Naming.Style
import TemplateMarkup.Template.Traversal

namespace TemplateMarkup

def Entry.shortNames (e : Entry) : List Text :=
  e.attributes.map (Naming.short ·.name)

namespace Entry

def isTagNamed (name : Text) (e : Entry) : Bool :=
  e.isNode NodeKind.isTag && e.name? == some name

def isAttributeOf (tag bare : Text) : Entry → Bool
  | node _ => false
  | attr owner a =>
    (a.name == bare || a.name == Naming.dataMark ++ bare) && owner.name? == some tag

def isAttributeBeside (first : Text) (names : List Text) : Entry → Bool
  | node _ => false
  | attr owner a =>
    Naming.short a.name == first &&
      names.all fun name => owner.attributes.any (Naming.short ·.name == name)

def isAttribute : Entry → Bool
  | node _ => false
  | attr _ _ => true

end Entry

namespace Template

def tags (t : Template) : List Entry :=
  t.walk.filter (·.isNode NodeKind.isTag)

def attributes (t : Template) : List Entry :=
  t.walk.filter Entry.isAttribute

def tagsNamed (t : Template) (name : Text) : List Entry :=
  t.walk.filter (·.isTagNamed name)

def attributesOf (t : Template) (tag name : Text) : List Entry :=
  t.walk.filter (·.isAttributeOf tag (Naming.bare name))

/-- The tags with a name, or their attributes with a name where one is given that is not empty. -/
def select (t : Template) (tag : Text) (name? : Option Text) : List Entry :=
  match name? with
  | none => t.tagsNamed tag
  | some name => if name.isEmpty then t.tagsNamed tag else t.attributesOf tag name

def attributesBeside (t : Template) : List Text → List Entry
  | [] => []
  | first :: others => t.walk.filter (·.isAttributeBeside first (first :: others))

end Template

end TemplateMarkup

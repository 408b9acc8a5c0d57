import TemplateMarkup.Markup.Item

/-! Documents as trees. Each part is printed so that its end can be told, and two parts that stand next to each
other stay apart. -/

namespace TemplateMarkup

inductive Part where
  | element (name : Text) (attributes : List (Text × Text)) (content : List Part)
  | void (name : Text) (attributes : List (Text × Text))
  | comment (body : Text)
  | interpolation (body : Text)
  | text (chars : Text)

namespace Part

def printAttribute (a : Text × Text) : Text :=
  ' ' :: (a.1 ++ ('=' :: '"' :: (a.2 ++ ['"'])))

def printOpening (name : Text) (attributes : List (Text × Text)) : Text :=
  '<' :: (name ++ (attributes.flatMap printAttribute ++ ['>']))

def printClosing (name : Text) : Text :=
  '<' :: '/' :: (name ++ ['>'])

mutual

def print : Part → Text
  | element name attributes content =>
    printOpening name attributes ++ (printAll content ++ printClosing name)
  | void name attributes => printOpening name attributes
  | comment body => '<' :: '!' :: '-' :: '-' :: (body ++ ['-', '-', '>'])
  | interpolation body => '{' :: '{' :: (body ++ ['}', '}'])
  | text chars => chars

def printAll : List Part → Text
  | [] => []
  | p :: rest => p.print ++ printAll rest

end

def IsName : Text → Prop
  | [] => False
  | c :: cs => Markup.isNameStart c ∧ ∀ d ∈ cs, Markup.isNameChar d

def IsAttribute (a : Text × Text) : Prop :=
  a.1 ≠ [] ∧ (∀ c ∈ a.1, Markup.isAttributeChar c) ∧ '"' ∉ a.2

/-- The second part may stand right behind the first. -/
def Precedes : Part → Part → Prop
  | text _, text _ => False
  | text chars, interpolation _ => chars.getLast? ≠ some '{'
  | _, _ => True

mutual

def WellFormed : Part → Prop
  | element name attributes content => IsName name ∧ Markup.isVoid name = false ∧
      (∀ a ∈ attributes, IsAttribute a) ∧ AllWellFormed content
  | void name attributes => IsName name ∧ Markup.isVoid name ∧ ∀ a ∈ attributes, IsAttribute a
  | comment body => ¬ ['-', '-', '>'] <:+: body
  | interpolation body => ¬ ['}', '}'] <:+: body ∧ body.getLast? ≠ some '}'
  | text chars => chars ≠ [] ∧ (∀ c, chars.head? = some c → Text.isBlank c = false) ∧
      '<' ∉ chars ∧ ¬ ['{', '{'] <:+: chars

def AllWellFormed : List Part → Prop
  | [] => True
  | p :: rest => p.WellFormed ∧ (∀ q, rest.head? = some q → p.Precedes q) ∧ AllWellFormed rest

end

end Part

structure Document where
  parts : List Part
  wellFormed : Part.AllWellFormed parts

def Document.print (d : Document) : Text :=
  Part.printAll d.parts

end TemplateMarkup

import TemplateMarkup.Template.Traversal

namespace TemplateMarkup

mutual

def Node.outerStop : Node → Nat
  | ⟨head, children⟩ =>
    if head.kind.isContainer then Node.lastStop head.span.stop children else head.span.stop

def Node.lastStop (stop : Nat) : List Node → Nat
  | [] => stop
  | n :: rest => if rest.isEmpty then n.outerStop else Node.lastStop stop rest

end

mutual

def Node.innermost (pos : Nat) : Node → Node
  | ⟨head, children⟩ =>
    if head.kind.isContainer && head.span.stop ≤ pos then
      (Node.innermostOf pos children).getD ⟨head, children⟩
    else ⟨head, children⟩

def Node.innermostOf (pos : Nat) : List Node → Option Node
  | [] => none
  | n :: rest =>
    -- The last node is searched even if it ends before the offset.
    if rest.isEmpty || pos < n.outerStop then some (n.innermost pos) else Node.innermostOf pos rest

end

namespace Entry

def outerStop : Entry → Nat
  | node n => n.outerStop
  | attr _ a => a.span.stop

def attributeAt? (e : Entry) (pos : Nat) : Option Attribute :=
  e.attributes.reverse.find? (·.span.touches pos)

end Entry

/-- What stands at an offset: an attribute that it touches, or else the innermost node. An empty
template has nothing at any offset. -/
def Template.entryAt? (t : Template) (pos : Nat) : Option Entry :=
  if t.isEmpty then none
  else
    let n := t.root.innermost pos
    match (Entry.node n).attributeAt? pos with
    | some a => some (.attr n a)
    | none => some (.node n)

end TemplateMarkup

import TemplateMarkup.Template.Builder

namespace TemplateMarkup

inductive Entry where
  | node (n : Node)
  | attr (owner : Node) (a : Attribute)
deriving Repr

inductive Order where
  | attributesFirst
  | childrenFirst
deriving DecidableEq, Repr

mutual

def Node.weight : Node → Nat
  | ⟨head, children⟩ => 1 + head.kind.attributes.length + Node.weights children

def Node.weights : List Node → Nat
  | [] => 0
  | n :: rest => n.weight + Node.weights rest

end

namespace Entry

def id : Entry → Nat
  | node n => n.head.id
  | attr _ a => a.id

def parent? : Entry → Option Nat
  | node n => n.head.parent
  | attr _ a => some a.owner

def outerStart : Entry → Nat
  | node n => n.head.outerStart
  | attr _ a => a.outerStart

def span : Entry → Span
  | node n => n.head.span
  | attr _ a => a.span

def name? : Entry → Option Text
  | node n => n.name?
  | attr _ a => some a.name

def attributes : Entry → List Attribute
  | node n => n.attributes
  | attr _ _ => []

def children : Entry → List Node
  | node n => n.children
  | attr _ _ => []

def isNode (p : NodeKind → Bool) : Entry → Bool
  | node n => p n.kind
  | attr _ _ => false

def below (order : Order) (e : Entry) : List Entry :=
  match e with
  | attr _ _ => []
  | node n =>
    let attributes := n.attributes.map (attr n)
    let children := n.children.map node
    match order with
    | .attributesFirst => attributes ++ children
    | .childrenFirst => children ++ attributes

def weight : Entry → Nat
  | node n => n.weight
  | attr _ _ => 1

def weights (es : List Entry) : Nat :=
  es.foldr (fun e n => e.weight + n) 0

@[simp] theorem weights_nil : weights [] = 0 := rfl

@[simp] theorem weights_cons (e : Entry) (es : List Entry) :
    weights (e :: es) = e.weight + weights es := rfl

@[simp] theorem weights_append (es fs : List Entry) :
    weights (es ++ fs) = weights es + weights fs := by
  induction es with
  | nil => simp
  | cons e es ih => simp [ih, Nat.add_assoc]

theorem weights_map_node (ns : List Node) : weights (ns.map node) = Node.weights ns := by
  induction ns with
  | nil => rfl
  | cons n rest ih => simp only [List.map_cons, weights_cons, Node.weights, weight, ih]

theorem weights_map_attr (n : Node) (as : List Attribute) :
    weights (as.map (attr n)) = as.length := by
  induction as with
  | nil => rfl
  | cons a rest ih =>
    simp only [List.map_cons, weights_cons, weight, ih, List.length_cons]
    omega

theorem weight_eq (order : Order) (e : Entry) : e.weight = 1 + weights (e.below order) := by
  cases e with
  | attr n a => rfl
  | node n =>
    obtain ⟨head, children⟩ := n
    cases order <;>
    · simp only [below, weights_append, weights_map_node, weights_map_attr]
      simp only [weight, Node.weight, Node.attributes]
      omega

/-- Visits the listed entries and all below them, behind those in `seen`, which is in reverse. -/
def visitFrom (order : Order) (seen : List Entry) : List Entry → List Entry
  | [] => seen.reverse
  | e :: rest => visitFrom order (e :: seen) (e.below order ++ rest)
termination_by todo => weights todo
decreasing_by
  simp only [weights_append, weights_cons]
  rw [weight_eq order e]
  omega

def visit (order : Order) (e : Entry) : List Entry :=
  visitFrom order [] [e]

end Entry

namespace Template

/-- Everything in the template, in document order, which is the order of ids. -/
def entries (t : Template) : List Entry :=
  (Entry.node t.root).visit .attributesFirst

/-- Everything in the template, children before attributes. -/
def walk (t : Template) : List Entry :=
  (Entry.node t.root).visit .childrenFirst

def entry? (t : Template) (id : Nat) : Option Entry :=
  t.entries.find? (·.id == id)

def isEmpty (t : Template) : Bool :=
  t.root.children.isEmpty

def text (t : Template) (e : Entry) : Text :=
  e.span.slice t.source

end Template

end TemplateMarkup

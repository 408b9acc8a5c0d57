import Mathlib.Data.List.Infix
import TemplateMarkup.Proofs.Document.Basic
import TemplateMarkup.Template.Builder

namespace TemplateMarkup

def Text.inside (before after : Nat) (cs : Text) : Text :=
  (cs.drop before).take (cs.length - before - after)

lemma Text.inside_append (before body after : Text) :
    Text.inside before.length after.length (before ++ (body ++ after)) = body := by
  have hlen : (before ++ (body ++ after)).length - before.length - after.length = body.length := by
    simp only [List.length_append]
    omega
  rw [inside, hlen, List.drop_left, List.take_left]

def Part.AreAttributes (as : List (Text × Text)) (attributes : List Attribute) : Prop :=
  attributes.map (fun a => (a.name, a.value)) = as.map fun a => (a.1, some a.2)

namespace Part

mutual

/-- The node is the part: its kind, its text and what stands below it. Below an element that is its content
and then an end tag. -/
def IsNode (source : Text) : Part → Node → Prop
  | element name as content, n =>
    (∃ attributes, n.head.kind = .startTag name attributes ∧ AreAttributes as attributes) ∧
      n.head.span.slice source = printOpening name as ∧
      ∃ inner last, n.children = inner ++ [last] ∧ AreNodes source content inner ∧
        last.head.kind = .endTag (some name) ∧ last.head.span.slice source = printClosing name ∧
        last.children = []
  | void name as, n =>
    (∃ attributes, n.head.kind = .selfClosingTag name attributes ∧ AreAttributes as attributes) ∧
      n.head.span.slice source = printOpening name as ∧ n.children = []
  | comment body, n =>
    n.head.kind = .comment ∧ n.head.span.slice source = (comment body).print ∧ n.children = []
  | interpolation body, n =>
    n.head.kind = .interpolation ∧ n.head.span.slice source = (interpolation body).print ∧
      n.children = []
  | text chars, n => n.head.kind = .text ∧ n.head.span.slice source = chars ∧ n.children = []

def AreNodes (source : Text) : List Part → List Node → Prop
  | [], ns => ns = []
  | p :: ps, ns => ∃ n rest, ns = n :: rest ∧ IsNode source p n ∧ AreNodes source ps rest

end

end Part

def Head.part? (source : Text) (h : Head) (content : List Part) : Option Part :=
  let pairs := h.kind.attributes.map fun a => (a.name, a.value.getD [])
  match h.kind with
  | .root => none
  | .startTag name _ => some (.element name pairs content)
  | .selfClosingTag name _ => some (.void name pairs)
  | .endTag _ => none
  | .text => some (.text (h.span.slice source))
  | .comment => some (.comment (Text.inside 4 3 (h.span.slice source)))
  | .interpolation => some (.interpolation (Text.inside 2 2 (h.span.slice source)))

namespace Node

mutual

def part? (source : Text) : Node → Option Part
  | ⟨head, children⟩ => head.part? source (parts source children)

def parts (source : Text) : List Node → List Part
  | [] => []
  | n :: rest => (n.part? source).toList ++ parts source rest

end

lemma part?_eq (source : Text) (n : Node) :
    n.part? source = n.head.part? source (parts source n.children) := by
  cases n
  rw [part?]

end Node

def Template.parts (t : Template) : List Part :=
  Node.parts t.source t.root.children

namespace Part

variable {source : Text}

lemma pairs_of_areAttributes {as : List (Text × Text)} {attributes : List Attribute}
    (h : AreAttributes as attributes) :
    (attributes.map fun a => (a.name, a.value.getD [])) = as := by
  have hpairs := congrArg (List.map fun a : Text × Option Text => (a.1, a.2.getD [])) h
  simpa [Function.comp_def] using hpairs

lemma parts_concat_endTag {inner : List Node} {last : Node} {name : Option Text}
    (h : last.head.kind = .endTag name) :
    Node.parts source (inner ++ [last]) = Node.parts source inner := by
  induction inner with
  | nil => simp [Node.parts, Node.part?_eq, Head.part?, h]
  | cons n inner ih => rw [List.cons_append, Node.parts, ih, Node.parts]

mutual

lemma part?_of_isNode (n : Node) : ∀ p : Part, IsNode source p n → n.part? source = some p
  | element name as content, h => by
    obtain ⟨⟨attributes, hk, has⟩, -, inner, last, hchildren, hinner, hlast, -⟩ := h
    rw [Node.part?_eq, hchildren, parts_concat_endTag hlast, parts_of_areNodes inner content hinner,
      Head.part?, hk]
    simp only [NodeKind.attributes, pairs_of_areAttributes has]
  | void name as, h => by
    obtain ⟨⟨attributes, hk, has⟩, -⟩ := h
    rw [Node.part?_eq, Head.part?, hk]
    simp only [NodeKind.attributes, pairs_of_areAttributes has]
  | comment body, h => by
    obtain ⟨hk, hchars, -⟩ := h
    rw [Node.part?_eq, Head.part?, hk, hchars]
    exact congrArg (some ∘ comment)
      (Text.inside_append ['<', '!', '-', '-'] body ['-', '-', '>'])
  | interpolation body, h => by
    obtain ⟨hk, hchars, -⟩ := h
    rw [Node.part?_eq, Head.part?, hk, hchars]
    exact congrArg (some ∘ interpolation) (Text.inside_append ['{', '{'] body ['}', '}'])
  | text chars, h => by
    obtain ⟨hk, hchars, -⟩ := h
    rw [Node.part?_eq, Head.part?, hk, hchars]

lemma parts_of_areNodes (ns : List Node) : ∀ ps : List Part,
    AreNodes source ps ns → Node.parts source ns = ps
  | [], h => by
    rw [show ns = [] from h]
    rfl
  | p :: ps, h => by
    obtain ⟨n, rest, rfl, hn, hrest⟩ := h
    rw [Node.parts, part?_of_isNode n p hn, parts_of_areNodes rest ps hrest]
    rfl

end

end Part

end TemplateMarkup

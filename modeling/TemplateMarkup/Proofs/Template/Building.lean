import TemplateMarkup.Proofs.Template.DocumentOrder

/-! Each item adds one node, which comes last in document order and has the innermost open tag for its parent. -/

namespace TemplateMarkup

open Markup (Item)

def NodeKind.isNameless : NodeKind → Bool
  | startTag name _ => name.isEmpty
  | _ => false

namespace Builder

def nextHead (b : Builder) (item : Item) : Head :=
  item.head b.nextId b.current.head.id b.offset

def pass (b : Builder) (item : Item) : Builder :=
  { b with
    offset := b.offset + Text.size item.chars
    nextId := b.nextId + 1 + item.piece.attributeCount
    faults := (item.faults b.offset).reverse ++ b.faults }

def push (b : Builder) (head : Head) : Builder :=
  { b with opened := ⟨head, []⟩ :: b.opened }

variable {b : Builder} {item : Item}

lemma add_of_startTag {name : Text} {attributes : List Attribute}
    (h : (b.nextHead item).kind = .startTag name attributes) :
    b.add item = (b.pass item).push (b.nextHead item) := by
  rw [add]
  simp only [show item.head b.nextId b.current.head.id b.offset = b.nextHead item from rfl, h]
  rfl

lemma add_of_endTag {name : Option Text} (h : (b.nextHead item).kind = .endTag name) :
    b.add item = ((b.pass item).append ⟨b.nextHead item, []⟩).close name (b.nextHead item).span := by
  rw [add]
  simp only [show item.head b.nextId b.current.head.id b.offset = b.nextHead item from rfl, h]
  rfl

lemma add_of_leaf (hs : ∀ name attributes, (b.nextHead item).kind ≠ .startTag name attributes)
    (he : ∀ name, (b.nextHead item).kind ≠ .endTag name) :
    b.add item = (b.pass item).append ⟨b.nextHead item, []⟩ := by
  rw [add]
  simp only [show item.head b.nextId b.current.head.id b.offset = b.nextHead item from rfl]
  rfl

lemma append_of_nil (h : b.opened = []) (n : Node) :
    b.append n = { b with root := b.root.add n } := by
  simp only [append, h]

lemma append_of_cons {f : Frame} {rest : List Frame} (h : b.opened = f :: rest) (n : Node) :
    b.append n = { b with opened := f.add n :: rest } := by
  simp only [append, h]

lemma append_pop_of_nil (h : b.opened = []) (n : Node) : (b.append n).pop = b.append n := by
  rw [append_of_nil h]
  simp only [pop, h]

lemma append_pop_of_cons {f : Frame} {rest : List Frame} (h : b.opened = f :: rest) (n : Node) :
    (b.append n).pop = { b with opened := rest }.append (f.add n).node := by
  rw [append_of_cons h]
  rfl

@[simp] lemma append_offset (b : Builder) (n : Node) : (b.append n).offset = b.offset := by
  rw [append]
  split <;> rfl

@[simp] lemma append_nextId (b : Builder) (n : Node) : (b.append n).nextId = b.nextId := by
  rw [append]
  split <;> rfl

@[simp] lemma append_faults (b : Builder) (n : Node) : (b.append n).faults = b.faults := by
  rw [append]
  split <;> rfl

@[simp] lemma append_root_head (b : Builder) (n : Node) :
    (b.append n).root.head = b.root.head := by
  rw [append]
  split <;> rfl

@[simp] lemma append_isEmpty (b : Builder) (n : Node) :
    (b.append n).opened.isEmpty = b.opened.isEmpty := by
  rw [append]
  split <;> simp_all

@[simp] lemma append_current_head (b : Builder) (n : Node) :
    (b.append n).current.head = b.current.head := by
  rw [current, current, append]
  split <;> simp_all [Frame.add]

@[simp] lemma append_current_name (b : Builder) (n : Node) :
    (b.append n).current.name = b.current.name := by
  rw [Frame.name, append_current_head, Frame.name]

@[simp] lemma pass_current (b : Builder) (item : Item) : (b.pass item).current = b.current := rfl

@[simp] lemma pop_offset (b : Builder) : b.pop.offset = b.offset := by
  rw [pop]
  split
  · rfl
  · rw [append_offset]

@[simp] lemma pop_nextId (b : Builder) : b.pop.nextId = b.nextId := by
  rw [pop]
  split
  · rfl
  · rw [append_nextId]

@[simp] lemma pop_faults (b : Builder) : b.pop.faults = b.faults := by
  rw [pop]
  split
  · rfl
  · rw [append_faults]

@[simp] lemma pop_root_head (b : Builder) : b.pop.root.head = b.root.head := by
  rw [pop]
  split
  · rfl
  · rw [append_root_head]

inductive Step (b : Builder) (item : Item) : Builder → Prop
  | push {name : Text} {attributes : List Attribute} :
      (b.nextHead item).kind = .startTag name attributes →
      Step b item ((b.pass item).push (b.nextHead item))
  | pop : (b.nextHead item).kind = .endTag (some b.current.name) →
      Step b item ((b.pass item).append ⟨b.nextHead item, []⟩).pop
  | stray {name : Option Text} : (b.nextHead item).kind = .endTag name → name ≠ some b.current.name →
      (b.current.name.isEmpty || Markup.isVoid b.current.name) →
      Step b item { (b.pass item).append ⟨b.nextHead item, []⟩ with
        faults := ⟨if b.opened.isEmpty then .unexpectedClosingTag
          else .mismatchedClosingTag b.current.name, (b.nextHead item).span⟩ :: (b.pass item).faults }
  | leaf : (∀ name attributes, (b.nextHead item).kind ≠ .startTag name attributes) →
      (b.nextHead item).kind ≠ .endTag (some b.current.name) →
      (∀ name, (b.nextHead item).kind = .endTag name →
        (b.current.name.isEmpty || Markup.isVoid b.current.name) = false) →
      Step b item ((b.pass item).append ⟨b.nextHead item, []⟩)

lemma add_step (b : Builder) (item : Item) : Step b item (b.add item) := by
  by_cases hs : ∃ name attributes, (b.nextHead item).kind = .startTag name attributes
  · obtain ⟨name, attributes, hs⟩ := hs
    rw [add_of_startTag hs]
    exact .push hs
  simp only [not_exists] at hs
  by_cases he : ∃ name, (b.nextHead item).kind = .endTag name
  · obtain ⟨name, he⟩ := he
    rw [add_of_endTag he, close]
    simp only [append_current_name, pass_current, append_faults, append_isEmpty]
    by_cases hn : name = some b.current.name
    · rw [if_pos hn]
      exact .pop (hn ▸ he)
    by_cases hv : (b.current.name.isEmpty || Markup.isVoid b.current.name) = true
    · rw [if_neg hn, if_pos hv]
      exact .stray he hn hv
    · rw [if_neg hn, if_neg hv]
      exact .leaf hs (by simpa [he] using hn) (fun _ _ => by simpa using hv)
  · simp only [not_exists] at he
    rw [add_of_leaf hs he]
    exact .leaf hs (he _) (fun name h => absurd h (he name))

lemma Step.offset_eq {d : Builder} (h : Step b item d) :
    d.offset = b.offset + Text.size item.chars := by
  cases h <;> simp [Builder.push, pass]

lemma Step.nextId_eq {d : Builder} (h : Step b item d) :
    d.nextId = b.nextId + 1 + item.piece.attributeCount := by
  cases h <;> simp [Builder.push, pass]

lemma Step.root_head_eq {d : Builder} (h : Step b item d) : d.root.head = b.root.head := by
  cases h <;> simp [Builder.push, pass]

def nest (inner : Option Node) (opened : List Frame) : Option Node :=
  opened.foldl (fun inner f => some (f.addAll inner.toList).node) inner

lemma tree_eq (b : Builder) : b.tree = (b.root.addAll (nest none b.opened).toList).node := rfl

lemma tree_pop (b : Builder) : b.pop.tree = b.tree := by
  rw [pop]
  split
  · rfl
  · rename_i f rest h
    cases rest with
    | nil => simp [append, tree_eq, nest, h, Frame.add, Frame.addAll]
    | cons g rest => simp [append, tree_eq, nest, h, Frame.add, Frame.addAll]

def openLinks (root : Frame) : List Frame → List (Head × Head)
  | [] => Node.linksFrom root.head root.children.reverse
  | f :: rest => openLinks root rest ++
      ((rest.headD root).head, f.head) :: Node.linksFrom f.head f.children.reverse

lemma links_nest (root : Frame) (opened : List Frame) (inner : Option Node) :
    (root.addAll (nest inner opened).toList).node.links =
      openLinks root opened ++ Node.linksFrom (opened.headD root).head inner.toList := by
  induction opened generalizing inner with
  | nil =>
    cases inner <;>
      simp [nest, Frame.addAll, Frame.node, Node.links_eq, openLinks, Node.linksFrom]
  | cons f rest ih =>
    have hf : (f.addAll inner.toList).node.links = Node.linksFrom f.head f.children.reverse ++
        Node.linksFrom f.head inner.toList := by
      cases inner <;> simp [Frame.addAll, Frame.node, Node.links_eq, Node.linksFrom]
    have hh : (f.addAll inner.toList).node.head = f.head := rfl
    have hr := ih (some (f.addAll inner.toList).node)
    rw [nest, List.foldl_cons, ← nest, hr]
    simp [openLinks, Node.linksFrom, hf, hh]

lemma tree_links (b : Builder) : b.tree.links = openLinks b.root b.opened := by
  rw [tree_eq, links_nest]
  simp [Node.linksFrom]

lemma append_tree_links (b : Builder) (n : Node) :
    (b.append n).tree.links = b.tree.links ++ Node.linksFrom b.current.head [n] := by
  rw [tree_links, tree_links]
  rw [append]
  split
  · rename_i h
    simp [h, openLinks, Frame.add, current]
  · rename_i f rest h
    simp [h, openLinks, Frame.add, current]

lemma push_tree_links (b : Builder) (head : Head) :
    (b.push head).tree.links = b.tree.links ++ [(b.current.head, head)] := by
  simp [tree_links, push, openLinks, current, Node.linksFrom]

lemma Step.tree_links {d : Builder} (h : Step b item d) :
    d.tree.links = b.tree.links ++ [(b.current.head, b.nextHead item)] := by
  have hp : (b.pass item).tree.links = b.tree.links := rfl
  have ha : ((b.pass item).append ⟨b.nextHead item, []⟩).tree.links =
      b.tree.links ++ [(b.current.head, b.nextHead item)] := by
    rw [append_tree_links, hp]
    rfl
  cases h with
  | push _ => rw [push_tree_links, hp, pass_current]
  | pop _ => rw [tree_pop, ha]
  | stray _ _ _ => exact ha
  | leaf _ _ _ => exact ha

end Builder

/-- An item with its place: the id and the offset that it gets, and the head of its parent. -/
structure Placed where
  id : Nat
  pos : Nat
  top : Head
  item : Markup.Item

namespace Placed

def head (p : Placed) : Head :=
  p.item.head p.id p.top.id p.pos

def link (p : Placed) : Head × Head :=
  (p.top, p.head)

end Placed

namespace Builder

def placed (b : Builder) : List Item → List Placed
  | [] => []
  | item :: rest => ⟨b.nextId, b.offset, b.current.head, item⟩ :: (b.add item).placed rest

@[simp] lemma placed_nil (b : Builder) : b.placed [] = [] := rfl

lemma tree_links_foldl (items : List Item) (b : Builder) :
    (items.foldl add b).tree.links = b.tree.links ++ (b.placed items).map Placed.link := by
  induction items generalizing b with
  | nil => simp
  | cons item rest ih =>
    rw [List.foldl_cons, ih, (add_step b item).tree_links, placed, List.map_cons, List.append_assoc]
    rfl

end Builder

def built (source : Text) : Builder :=
  (Markup.items source).foldl Builder.add Builder.start

def placed (source : Text) : List Placed :=
  Builder.start.placed (Markup.items source)

lemma built_induction {P : Builder → Prop} (hstart : P Builder.start)
    (hstep : ∀ b item d, P b → Builder.Step b item d → P d) (source : Text) : P (built source) := by
  suffices h : ∀ (items : List Item) (b : Builder), P b → P (items.foldl Builder.add b) from
    h (Markup.items source) Builder.start hstart
  intro items
  induction items with
  | nil => exact fun b hb => hb
  | cons item items ih =>
    intro b hb
    exact ih (b.add item) (hstep b item _ hb (Builder.add_step b item))

lemma parse_links (source : Text) :
    (parse source).root.links = (placed source).map Placed.link :=
  Builder.tree_links_foldl (Markup.items source) Builder.start

lemma parse_root_head (source : Text) : (parse source).root.head = rootHead := by
  have h : (built source).root.head = rootHead := by
    apply built_induction (P := fun b => b.root.head = rootHead) rfl
    intro b item d hb hstep
    rw [hstep.root_head_eq, hb]
  exact h

lemma parse_nodes_heads (source : Text) :
    (parse source).nodes.map Node.head = rootHead :: (placed source).map Placed.head := by
  rw [Template.nodes_eq, Node.map_head_preorder, parse_links, parse_root_head, List.map_map]
  rfl

end TemplateMarkup

import Mathlib.Data.List.Perm.Basic
import TemplateMarkup.Template.Traversal

/-! Document order as a recursion over the tree: a node, its attributes, then the nodes below it. -/

namespace TemplateMarkup

namespace Entry

variable (order : Order)

lemma visitFrom_eq (seen todo : List Entry) :
    visitFrom order seen todo = seen.reverse ++ visitFrom order [] todo := by
  suffices h : ∀ first second : List Entry,
      visitFrom order (first ++ second) todo = second.reverse ++ visitFrom order first todo by
    simpa using h [] seen
  intro first second
  fun_induction visitFrom order first todo with
  | case1 first => simp [visitFrom]
  | case2 first e rest ih => simpa [visitFrom] using ih

lemma visitFrom_append (todo rest : List Entry) :
    visitFrom order [] (todo ++ rest) = visitFrom order [] todo ++ visitFrom order [] rest := by
  induction h : weights todo using Nat.strongRecOn generalizing todo with
  | _ n ih =>
    cases todo with
    | nil => simp [visitFrom]
    | cons e todo =>
      have hw : weights (e.below order ++ todo) < n := by
        rw [weights_cons, weight_eq order e] at h
        rw [weights_append]
        omega
      have hrec := ih _ hw _ rfl
      rw [List.cons_append, visitFrom, visitFrom, ← List.append_assoc, visitFrom_eq, hrec,
        visitFrom_eq order [e] (e.below order ++ todo), List.append_assoc]

lemma visitFrom_eq_flatMap (todo : List Entry) :
    visitFrom order [] todo = todo.flatMap (visit order) := by
  induction todo with
  | nil => simp [visitFrom]
  | cons e rest ih =>
    rw [← List.singleton_append, visitFrom_append, ih]
    rfl

lemma visit_eq (e : Entry) :
    e.visit order = e :: (e.below order).flatMap (visit order) := by
  rw [visit, visitFrom, visitFrom_eq, List.append_nil, visitFrom_eq_flatMap]
  rfl

@[simp] lemma visit_attr (n : Node) (a : Attribute) : (attr n a).visit order = [attr n a] := by
  rw [visit_eq]
  rfl

def node? : Entry → Option Node
  | node n => some n
  | attr _ _ => none

end Entry

namespace Node

mutual

def preorder : Node → List Node
  | ⟨head, children⟩ => ⟨head, children⟩ :: preorders children

def preorders : List Node → List Node
  | [] => []
  | n :: rest => n.preorder ++ preorders rest

end

mutual

def links : Node → List (Head × Head)
  | ⟨head, children⟩ => linksFrom head children

def linksFrom (top : Head) : List Node → List (Head × Head)
  | [] => []
  | n :: rest => (top, n.head) :: (n.links ++ linksFrom top rest)

end

def entries (n : Node) : List Entry :=
  .node n :: n.attributes.map (.attr n)

lemma preorder_eq (n : Node) : n.preorder = n :: preorders n.children := by
  cases n
  rw [preorder]

lemma links_eq (n : Node) : n.links = linksFrom n.head n.children := by
  cases n
  rw [links]

lemma preorders_eq_flatMap (ns : List Node) : preorders ns = ns.flatMap preorder := by
  induction ns with
  | nil => rfl
  | cons n rest ih => rw [preorders, List.flatMap_cons, ih]

@[simp] lemma preorders_append (ns ms : List Node) :
    preorders (ns ++ ms) = preorders ns ++ preorders ms := by
  simp only [preorders_eq_flatMap, List.flatMap_append]

lemma mem_preorders {m : Node} {ns : List Node} : m ∈ preorders ns ↔ ∃ n ∈ ns, m ∈ n.preorder := by
  rw [preorders_eq_flatMap, List.mem_flatMap]

@[simp] lemma linksFrom_append (top : Head) (ns ms : List Node) :
    linksFrom top (ns ++ ms) = linksFrom top ns ++ linksFrom top ms := by
  induction ns with
  | nil => rfl
  | cons n rest ih => simp [linksFrom, ih]

mutual

lemma visit_node : ∀ n : Node,
    (Entry.node n).visit .attributesFirst = n.preorder.flatMap entries
  | ⟨head, children⟩ => by
    rw [Entry.visit_eq, Entry.below, List.flatMap_append, visit_nodes children, preorder,
      List.flatMap_cons, entries, List.cons_append, List.flatMap_map, List.map_eq_flatMap]
    simp only [Entry.visit_attr]

lemma visit_nodes : ∀ ns : List Node,
    (ns.map Entry.node).flatMap (Entry.visit .attributesFirst) = (preorders ns).flatMap entries
  | [] => rfl
  | n :: rest => by
    rw [List.map_cons, List.flatMap_cons, visit_node n, visit_nodes rest, preorders,
      List.flatMap_append]

end

mutual

lemma visit_perm : ∀ n : Node,
    ((Entry.node n).visit .childrenFirst).Perm ((Entry.node n).visit .attributesFirst)
  | ⟨head, children⟩ => by
    have hattributes (order : Order) (n : Node) :
        (n.attributes.map (Entry.attr n)).flatMap (Entry.visit order) =
          n.attributes.map (Entry.attr n) := by
      rw [List.flatMap_map, List.map_eq_flatMap]
      simp only [Entry.visit_attr]
    rw [Entry.visit_eq, Entry.visit_eq, Entry.below, Entry.below, List.flatMap_append,
      List.flatMap_append, hattributes, hattributes]
    apply List.Perm.cons
    exact ((visits_perm children).append_right _).trans List.perm_append_comm

lemma visits_perm : ∀ ns : List Node, ((ns.map Entry.node).flatMap (Entry.visit .childrenFirst)).Perm
    ((ns.map Entry.node).flatMap (Entry.visit .attributesFirst))
  | [] => List.Perm.refl _
  | n :: rest => by
    rw [List.map_cons, List.flatMap_cons, List.flatMap_cons]
    exact (visit_perm n).append (visits_perm rest)

end

mutual

lemma map_head_preorder : ∀ n : Node, n.preorder.map head = n.head :: n.links.map Prod.snd
  | ⟨top, children⟩ => by rw [preorder, links, List.map_cons, map_head_preorders top children]

lemma map_head_preorders (top : Head) : ∀ ns : List Node,
    (preorders ns).map head = (linksFrom top ns).map Prod.snd
  | [] => rfl
  | n :: rest => by
    rw [preorders, List.map_append, map_head_preorder n, map_head_preorders top rest, linksFrom,
      List.map_cons, List.map_append, List.cons_append]

end

lemma mem_preorder_self (n : Node) : n ∈ n.preorder := by
  rw [preorder_eq]
  exact List.mem_cons_self ..

lemma mem_preorders_of_mem {n : Node} {ns : List Node} (h : n ∈ ns) : n ∈ preorders ns :=
  mem_preorders.2 ⟨n, h, mem_preorder_self n⟩

mutual

lemma preorder_subset_of_mem {m : Node} : ∀ n : Node, m ∈ n.preorder → m.preorder ⊆ n.preorder
  | ⟨head, children⟩, h => by
    rw [preorder] at h ⊢
    rcases List.mem_cons.1 h with rfl | h
    · rw [preorder]
      exact fun _ hk => hk
    · exact List.subset_cons_of_subset _ (preorder_subset_of_mem_preorders children h)

lemma preorder_subset_of_mem_preorders {m : Node} : ∀ ns : List Node,
    m ∈ preorders ns → m.preorder ⊆ preorders ns
  | [], h => by cases h
  | n :: rest, h => by
    rw [preorders] at h ⊢
    rcases List.mem_append.1 h with h | h
    · exact List.subset_append_of_subset_left _ (preorder_subset_of_mem n h)
    · exact List.subset_append_of_subset_right _ (preorder_subset_of_mem_preorders rest h)

end

lemma mem_preorder_of_mem_children {n c : Node} (h : c ∈ n.children) : c ∈ n.preorder := by
  rw [preorder_eq]
  exact List.mem_cons_of_mem n (mem_preorders_of_mem h)

mutual

lemma mem_links (link : Head × Head) : ∀ n : Node, link ∈ n.links ↔
    ∃ m ∈ n.preorder, ∃ c ∈ m.children, link = (m.head, c.head)
  | ⟨top, children⟩ => by
    rw [links, mem_linksFrom link top children, preorder]
    simp

lemma mem_linksFrom (link : Head × Head) (top : Head) : ∀ ns : List Node,
    link ∈ linksFrom top ns ↔ (∃ c ∈ ns, link = (top, c.head)) ∨
      ∃ m ∈ preorders ns, ∃ c ∈ m.children, link = (m.head, c.head)
  | [] => by simp [linksFrom, preorders]
  | n :: rest => by
    simp only [linksFrom, preorders, List.mem_cons, List.mem_append, or_and_right, exists_or,
      exists_eq_left, mem_links link n, mem_linksFrom link top rest]
    rw [or_assoc]
    exact or_congr Iff.rfl or_left_comm

end

end Node

namespace Template

def nodes (t : Template) : List Node :=
  t.entries.filterMap Entry.node?

lemma entries_eq (t : Template) : t.entries = t.root.preorder.flatMap Node.entries :=
  Node.visit_node t.root

lemma walk_perm_entries (t : Template) : t.walk.Perm t.entries :=
  Node.visit_perm t.root

lemma nodes_eq (t : Template) : t.nodes = t.root.preorder := by
  rw [nodes, entries_eq]
  induction t.root.preorder with
  | nil => rfl
  | cons n rest ih =>
    have hattr : (n.attributes.map (Entry.attr n)).filterMap Entry.node? = [] := by
      simp [Entry.node?]
    rw [List.flatMap_cons, List.filterMap_append, ih, Node.entries, List.filterMap_cons, hattr]
    rfl

lemma mem_nodes_of_mem_preorder {t : Template} {m n : Node} (hn : n ∈ t.nodes) (hm : m ∈ n.preorder) :
    m ∈ t.nodes := by
  rw [nodes_eq] at hn ⊢
  exact Node.preorder_subset_of_mem _ hn hm

end Template

end TemplateMarkup

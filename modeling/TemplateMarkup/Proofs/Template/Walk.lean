import TemplateMarkup.Proofs.Template.Lookup
import TemplateMarkup.Template.Selection

namespace TemplateMarkup

namespace Node

mutual

def walk : Node → List Entry
  | ⟨head, children⟩ =>
    .node ⟨head, children⟩ :: (walks children ++ head.kind.attributes.map (.attr ⟨head, children⟩))

def walks : List Node → List Entry
  | [] => []
  | n :: rest => n.walk ++ walks rest

end

lemma walk_eq (n : Node) :
    n.walk = .node n :: (walks n.children ++ n.attributes.map (.attr n)) := by
  cases n
  rw [walk]
  rfl

mutual

lemma visit_eq_walk : ∀ n : Node, (Entry.node n).visit .childrenFirst = n.walk
  | ⟨head, children⟩ => by
    rw [Entry.visit_eq, Entry.below, List.flatMap_append, visit_eq_walks children, walk]
    simp only [List.flatMap_map, Entry.visit_attr, ← List.map_eq_flatMap]
    rfl

lemma visit_eq_walks : ∀ ns : List Node,
    (ns.map Entry.node).flatMap (Entry.visit .childrenFirst) = walks ns
  | [] => rfl
  | n :: rest => by
    rw [List.map_cons, List.flatMap_cons, visit_eq_walk n, visit_eq_walks rest, walks]

end

lemma filterMap_node?_attributes (n : Node) :
    (n.attributes.map (Entry.attr n)).filterMap Entry.node? = [] := by
  simp [Entry.node?]

mutual

lemma filterMap_node?_walk : ∀ n : Node, n.walk.filterMap Entry.node? = n.preorder
  | ⟨head, children⟩ => by
    have hattributes := filterMap_node?_attributes ⟨head, children⟩
    rw [walk_eq, List.filterMap_cons, List.filterMap_append, hattributes, List.append_nil,
      filterMap_node?_walks children, preorder]
    rfl

lemma filterMap_node?_walks : ∀ ns : List Node,
    (walks ns).filterMap Entry.node? = preorders ns
  | [] => rfl
  | n :: rest => by
    rw [walks, List.filterMap_append, filterMap_node?_walk n, filterMap_node?_walks rest, preorders]

end

lemma walks_infix_walk (n : Node) : walks n.children <:+: n.walk := by
  rw [walk_eq]
  exact ⟨[.node n], n.attributes.map (.attr n), by simp⟩

mutual

lemma walk_infix_walk {m : Node} : ∀ n : Node, m ∈ n.preorder → m.walk <:+: n.walk
  | ⟨head, children⟩, h => by
    rw [preorder] at h
    rcases List.mem_cons.1 h with rfl | h
    · exact List.infix_rfl
    · exact (walk_infix_walks children h).trans (walks_infix_walk ⟨head, children⟩)

lemma walk_infix_walks {m : Node} : ∀ ns : List Node, m ∈ preorders ns → m.walk <:+: walks ns
  | [], h => by cases h
  | n :: rest, h => by
    rw [preorders] at h
    rw [walks]
    rcases List.mem_append.1 h with h | h
    · exact (walk_infix_walk n h).trans (List.prefix_append ..).isInfix
    · exact (walk_infix_walks rest h).trans (List.suffix_append ..).isInfix

end

lemma filter_isAttribute_walk (n : Node) : n.walk.filter Entry.isAttribute =
    (walks n.children).filter Entry.isAttribute ++ n.attributes.map (.attr n) := by
  have hown : (n.attributes.map (Entry.attr n)).filter Entry.isAttribute =
      n.attributes.map (.attr n) := by
    apply List.filter_eq_self.2
    intro e he
    obtain ⟨a, -, rfl⟩ := List.mem_map.1 he
    rfl
  rw [walk_eq, List.filter_cons_of_neg (by simp [Entry.isAttribute]), List.filter_append, hown]

lemma attributes_suffix_walk (n : Node) :
    n.attributes.map (.attr n) <:+ n.walk.filter Entry.isAttribute := by
  rw [filter_isAttribute_walk]
  exact List.suffix_append ..

lemma attributes_sublist_walk {m n : Node} (h : m ∈ preorders n.children) :
    (m.attributes.map (Entry.attr m) ++ n.attributes.map (Entry.attr n)).Sublist
      (n.walk.filter Entry.isAttribute) := by
  rw [filter_isAttribute_walk]
  apply List.Sublist.append_right
  exact m.attributes_suffix_walk.sublist.trans ((walk_infix_walks n.children h).sublist.filter _)

end Node

lemma Entry.filter_eq_filter_node {p : Entry → Bool} (h : ∀ n a, p (.attr n a) = false)
    (es : List Entry) :
    es.filter p = ((es.filterMap Entry.node?).filter fun n => p (.node n)).map .node := by
  induction es with
  | nil => rfl
  | cons e es ih =>
    cases e with
    | attr n a =>
      rw [List.filter_cons_of_neg (by simp [h]), ih]
      rfl
    | node n =>
      rw [List.filterMap_cons, Entry.node?, List.filter_cons, List.filter_cons, ih]
      split <;> rfl

namespace Template

lemma walk_eq (t : Template) : t.walk = t.root.walk :=
  Node.visit_eq_walk t.root

lemma filter_walk_eq {p : Entry → Bool} (t : Template) (h : ∀ n a, p (.attr n a) = false) :
    t.walk.filter p = (t.nodes.filter fun n => p (.node n)).map .node := by
  rw [Entry.filter_eq_filter_node h, walk_eq, Node.filterMap_node?_walk, nodes_eq]

lemma tags_eq (t : Template) : t.tags = (t.nodes.filter fun n => n.kind.isTag).map .node :=
  t.filter_walk_eq fun _ _ => rfl

lemma select_eq (t : Template) (name : Text) : t.select name none =
    (t.nodes.filter fun n => n.kind.isTag && n.name? == some name).map .node :=
  t.filter_walk_eq fun _ _ => rfl

lemma attributes_infix {t : Template} {n : Node} (h : n ∈ t.nodes) :
    n.attributes.map (.attr n) <:+: t.attributes := by
  rw [nodes_eq] at h
  rw [attributes, walk_eq]
  exact n.attributes_suffix_walk.isInfix.trans ((Node.walk_infix_walk t.root h).filter _)

lemma attributes_sublist {t : Template} {m n : Node} (hn : n ∈ t.nodes)
    (hm : m ∈ Node.preorders n.children) :
    (m.attributes.map (Entry.attr m) ++ n.attributes.map (Entry.attr n)).Sublist t.attributes := by
  rw [nodes_eq] at hn
  rw [attributes, walk_eq]
  exact (Node.attributes_sublist_walk hm).trans ((Node.walk_infix_walk t.root hn).sublist.filter _)

end Template

structure Entry.Precedes (d e : Entry) : Prop where
  id_lt : d.id < e.id
  start_lt : d.span.start < e.span.start

variable {source : Text}

lemma content_precedes (hs : Text.size source < Word.bound) :
    ((parse source).content.map Entry.node).Pairwise Entry.Precedes := by
  have hheads : (parse source).content.Pairwise fun m n =>
      m.head.id < n.head.id ∧ m.head.span.start < n.head.span.start := by
    apply pairwise_content (R := fun g h => g.id < h.id ∧ g.span.start < h.span.start)
    refine (placed_pairwise source).imp_of_mem fun {p q} hp hq h => ?_
    rw [Placed.head_id hp hs, Placed.head_id hq hs, Placed.head_span hp hs, Placed.head_span hq hs]
    have hid := h.id_lt
    exact ⟨by omega, h.start_lt⟩
  rw [List.pairwise_map]
  exact hheads.imp fun h => ⟨h.1, h.2⟩

lemma filter_nodes_precedes (hs : Text.size source < Word.bound) {p : Node → Bool}
    (hp : ∀ n, n.kind = .root → p n = false) :
    (((parse source).nodes.filter p).map Entry.node).Pairwise Entry.Precedes := by
  have hcontent : (parse source).nodes.filter p = (parse source).content.filter p := by
    rw [Template.content, List.filter_filter]
    apply List.filter_congr
    intro n _
    by_cases hk : n.kind = .root
    · simp [hp n hk]
    · simp [hk]
  rw [hcontent]
  exact (content_precedes hs).sublist (List.filter_sublist.map _)

lemma attributes_starts_increase (hs : Text.size source < Word.bound) {n : Node}
    (hn : n ∈ (parse source).nodes) :
    n.attributes.Pairwise fun a b => a.span.start < b.span.start := by
  by_cases hk : n.kind = .root
  · have hnil : n.attributes = [] := by
      rw [Node.attributes, show n.head.kind = .root from hk]
      rfl
    rw [hnil]
    exact List.Pairwise.nil
  · have hspaced := spaced_of_mem_content hs (List.mem_filter.2 ⟨hn, by simpa using hk⟩)
    refine hspaced.apart.imp_of_mem fun {a b} ha _ h => ?_
    exact Nat.lt_of_lt_of_le (hspaced.inside a ha).2.1 h

lemma walk_ids_perm (hs : Text.size source < Word.bound) :
    ((parse source).walk.map Entry.id).Perm (List.range (parse source).entries.length) := by
  rw [← (map_id_entries source).trans (ids_eq_range hs)]
  exact (parse source).walk_perm_entries.map _

/-- The loop of the walk follows the recursion, and visits each id once. Tags are listed by increasing ids
and offsets; attributes are listed once, in the order of their tag, behind those of the tags inside it. -/
theorem walk_visits_once (source : Text) (hs : Text.size source < Word.bound) :
    (parse source).walk = (parse source).root.walk ∧
    ((parse source).walk.map Entry.id).Perm (List.range (parse source).entries.length) ∧
    ((parse source).tags = ((parse source).nodes.filter fun n => n.kind.isTag).map .node ∧
      (parse source).tags.Pairwise Entry.Precedes) ∧
    (∀ name, (parse source).select name none =
        ((parse source).nodes.filter fun n => n.kind.isTag && n.name? == some name).map .node ∧
      ((parse source).select name none).Pairwise Entry.Precedes) ∧
    (parse source).attributes.Perm ((parse source).entries.filter Entry.isAttribute) ∧
    ((parse source).attributes.map Entry.id).Nodup ∧
    ∀ n ∈ (parse source).nodes,
      n.attributes.map (.attr n) <:+: (parse source).attributes ∧
      (n.attributes.Pairwise fun a b => a.span.start < b.span.start) ∧
      ∀ m ∈ Node.preorders n.children,
        (m.attributes.map (Entry.attr m) ++ n.attributes.map (Entry.attr n)).Sublist
          (parse source).attributes := by
  have hids := walk_ids_perm hs
  have htag (n : Node) (hk : n.kind = .root) : n.kind.isTag = false := by rw [hk]; rfl
  refine ⟨(parse source).walk_eq, hids, ⟨(parse source).tags_eq, ?_⟩, fun name =>
    ⟨(parse source).select_eq name, ?_⟩, (parse source).walk_perm_entries.filter _, ?_, ?_⟩
  · rw [Template.tags_eq]
    exact filter_nodes_precedes hs htag
  · rw [Template.select_eq]
    apply filter_nodes_precedes hs
    intro n hk
    rw [htag n hk, Bool.false_and]
  · have hnodup : ((parse source).walk.map Entry.id).Nodup := hids.nodup_iff.2 List.nodup_range
    exact hnodup.sublist (List.filter_sublist.map _)
  · intro n hn
    exact ⟨Template.attributes_infix hn, attributes_starts_increase hs hn, fun m hm =>
      Template.attributes_sublist hn hm⟩

theorem walk_visits_once_nested :
    Text.size ['<', 'a', ' ', 'x', ' ', 'y', '>', '<', 'b', ' ', 'z', '>', '<', '/', 'b', '>'] <
      Word.bound ∧
    (parse ['<', 'a', ' ', 'x', ' ', 'y', '>', '<', 'b', ' ', 'z', '>', '<', '/', 'b',
      '>']).walk.map Entry.id = [0, 1, 4, 6, 5, 2, 3] ∧
    (parse ['<', 'a', ' ', 'x', ' ', 'y', '>', '<', 'b', ' ', 'z', '>', '<', '/', 'b',
      '>']).tags.map Entry.id = [1, 4, 6] ∧
    (parse ['<', 'a', ' ', 'x', ' ', 'y', '>', '<', 'b', ' ', 'z', '>', '<', '/', 'b',
      '>']).tags.Pairwise Entry.Precedes :=
  ⟨by decide, by decide +kernel, by decide +kernel, (walk_visits_once _ (by decide)).2.2.1.2⟩

end TemplateMarkup

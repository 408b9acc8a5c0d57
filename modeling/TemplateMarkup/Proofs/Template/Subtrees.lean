import TemplateMarkup.Proofs.Template.Walk

namespace TemplateMarkup

namespace Node

variable {n : Node}

lemma lastStop_eq_getLast? (stop : Nat) (ns : List Node) :
    lastStop stop ns = ns.getLast?.elim stop outerStop := by
  induction ns with
  | nil => rfl
  | cons n rest ih =>
    rw [lastStop]
    cases rest with
    | nil => rfl
    | cons m rest => simpa using ih

lemma preorder_infix {m : Node} (n : Node) (h : m ∈ n.preorder) : m.preorder <:+: n.preorder := by
  rw [← filterMap_node?_walk, ← filterMap_node?_walk]
  exact (walk_infix_walk n h).filterMap _

lemma stop_le_outerStop (h : Ordered n.preorder) {m : Node} (hm : m ∈ n.preorder) :
    m.head.span.stop ≤ n.outerStop := by
  by_contra hlt
  have hlt := (lt_outerStop_iff h).2 ⟨m, hm, Nat.lt_of_not_le hlt⟩
  exact Nat.lt_irrefl _ hlt

lemma exists_stop_eq_outerStop (h : Ordered n.preorder) :
    ∃ m ∈ n.preorder, m.head.span.stop = n.outerStop := by
  obtain ⟨last, hlast, hstop⟩ := Option.map_eq_some_iff.1 (outerStop_eq n h)
  exact ⟨last, List.mem_of_getLast? hlast, hstop⟩

end Node

lemma Entry.mem_visit (order : Order) {d : Entry} (n : Node) :
    d ∈ (Entry.node n).visit order ↔ ∃ m ∈ n.preorder, d ∈ m.entries := by
  rw [← List.mem_flatMap, ← Node.visit_node n]
  cases order with
  | attributesFirst => exact Iff.rfl
  | childrenFirst => exact (Node.visit_perm n).mem_iff

variable {source : Text} {n : Node}

lemma preorder_ordered_of_mem (hs : Text.size source < Word.bound) (hn : n ∈ (parse source).nodes) :
    Node.Ordered n.preorder := by
  rw [Template.nodes_eq] at hn
  exact (preorder_ordered hs).sublist (Node.preorder_infix _ hn).sublist

lemma attribute_stop_le (hs : Text.size source < Word.bound) (hn : n ∈ (parse source).nodes)
    {a : Attribute} (ha : a ∈ n.attributes) : a.span.stop ≤ n.head.span.stop := by
  have hk : n.kind ≠ .root := by
    intro hk
    have hopening := isOpeningTag_of_mem_attributes ha
    rw [hk] at hopening
    cases hopening
  exact ((spaced_of_mem_content hs (mem_content_of_kind hn hk)).inside a ha).2.2

lemma children_apart (hs : Text.size source < Word.bound) (hn : n ∈ (parse source).nodes) :
    (Node.preorders n.children).Pairwise fun c d => c.head.span.stop ≤ d.head.outerStart := by
  have hsublist : (Node.preorders n.children).Sublist (parse source).content := by
    rw [Template.nodes_eq] at hn
    have hinfix := (Node.preorder_infix _ hn).sublist
    rw [Node.preorder_eq n, Node.preorder_eq (parse source).root] at hinfix
    rw [content_eq_preorders]
    exact hinfix.tail
  exact (content_apart hs).sublist hsublist

lemma visit_stop_le (hs : Text.size source < Word.bound) (hn : n ∈ (parse source).nodes)
    {order : Order} {d : Entry} (hd : d ∈ (Entry.node n).visit order) : d.span.stop ≤ n.outerStop := by
  obtain ⟨m, hm, hd⟩ := (Entry.mem_visit order n).1 hd
  have hstop := Node.stop_le_outerStop (preorder_ordered_of_mem hs hn) hm
  rcases List.mem_cons.1 hd with rfl | hd
  · exact hstop
  · obtain ⟨a, ha, rfl⟩ := List.mem_map.1 hd
    exact (attribute_stop_le hs (Template.mem_nodes_of_mem_preorder hn hm) ha).trans hstop

lemma outerStop_greatest (hs : Text.size source < Word.bound) {e : Entry}
    (he : e ∈ (parse source).entries) (order : Order) :
    ((e.visit order).map fun d => d.span.stop).max? = some e.outerStop := by
  rcases mem_entries_cases he with ⟨n, hn, rfl⟩ | ⟨n, hn, a, ha, rfl⟩
  · rw [List.max?_eq_some_iff]
    constructor
    · obtain ⟨m, hm, hstop⟩ := Node.exists_stop_eq_outerStop (preorder_ordered_of_mem hs hn)
      apply List.mem_map.2
      exact ⟨.node m, (Entry.mem_visit order n).2 ⟨m, hm, List.mem_cons_self ..⟩, hstop⟩
    · intro stop hstop
      obtain ⟨d, hd, rfl⟩ := List.mem_map.1 hstop
      exact visit_stop_le hs hn hd
  · rw [Entry.visit_attr]
    rfl

lemma mem_nodes_of_mem_children (hn : n ∈ (parse source).nodes) {c : Node} (hc : c ∈ n.children) :
    c ∈ (parse source).nodes :=
  Template.mem_nodes_of_mem_preorder hn (Node.mem_preorder_of_mem_children hc)

lemma outerStop_eq_last (hn : n ∈ (parse source).nodes) :
    n.outerStop = n.children.getLast?.elim n.head.span.stop Node.outerStop := by
  rw [← Node.lastStop_eq_getLast?]
  cases n with
  | mk head children =>
    rw [Node.outerStop]
    cases children with
    | nil => exact ite_self _
    | cons c rest => exact if_pos (isContainer_of_mem_children hn (List.mem_cons_self ..))

lemma outerStop_le_outerStart (hs : Text.size source < Word.bound)
    (hn : n ∈ (parse source).nodes) :
    n.children.Pairwise fun c d => c.outerStop ≤ d.head.outerStart := by
  have hapart := children_apart hs hn
  rw [Node.preorders_eq_flatMap, List.pairwise_flatMap] at hapart
  apply hapart.2.imp_of_mem
  intro c d hc _ h
  -- A node ends with its content where some node `m` of it ends, and `m` is before all of `d`.
  obtain ⟨m, hm, hstop⟩ := Node.exists_stop_eq_outerStop
    (preorder_ordered_of_mem hs (mem_nodes_of_mem_children hn hc))
  rw [← hstop]
  exact h m hm d d.mem_preorder_self

lemma outerStart_le_outerStop (hs : Text.size source < Word.bound)
    (hn : n ∈ (parse source).nodes) : n.head.outerStart ≤ n.outerStop := by
  have hin := head_isIn hs hn
  calc n.head.outerStart
      ≤ n.head.span.start := hin.gap_within.start_le_stop
    _ ≤ n.head.span.stop := hin.span_within.start_le_stop
    _ ≤ n.outerStop := Node.stop_le_outerStop (preorder_ordered_of_mem hs hn) n.mem_preorder_self

/-- Where an entry ends with all that is below it is the greatest end there, found along last children. Of
two nodes in one list of children, the first ends with its content before the second begins. -/
theorem outerStop_exact (source : Text) (hs : Text.size source < Word.bound) :
    (∀ e ∈ (parse source).entries, ∀ order : Order,
      ((e.visit order).map fun d => d.span.stop).max? = some e.outerStop) ∧
    ∀ n ∈ (parse source).nodes,
      n.outerStop = n.children.getLast?.elim n.head.span.stop Node.outerStop ∧
      (n.children.Pairwise fun c d => c.outerStop ≤ d.head.outerStart) ∧
      n.children.Pairwise fun c d => c.outerStop ≤ d.outerStop := by
  refine ⟨fun e he order => outerStop_greatest hs he order, fun n hn => ?_⟩
  have hapart := outerStop_le_outerStart hs hn
  refine ⟨outerStop_eq_last hn, hapart, hapart.imp_of_mem ?_⟩
  intro c d _ hd h
  exact h.trans (outerStart_le_outerStop hs (mem_nodes_of_mem_children hn hd))

theorem outerStop_exact_zero_width :
    Text.size ['<', 'a', ' ', 'x', '>', '<', 'b', '>', '<', '/', 'b', '>', '<'] < Word.bound ∧
    (parse ['<', 'a', ' ', 'x', '>', '<', 'b', '>', '<', '/', 'b', '>', '<']).entries.map
      (fun e => (e.span.stop, e.outerStop)) = [(0, 12), (5, 12), (4, 4), (8, 12), (12, 12), (12, 12)] ∧
    ∀ e ∈ (parse ['<', 'a', ' ', 'x', '>', '<', 'b', '>', '<', '/', 'b', '>', '<']).entries,
      ∀ order : Order, ((e.visit order).map fun d => d.span.stop).max? = some e.outerStop :=
  ⟨by decide, by decide +kernel, (outerStop_exact _ (by decide)).1⟩

end TemplateMarkup

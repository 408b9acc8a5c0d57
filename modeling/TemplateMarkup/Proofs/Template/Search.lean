import Mathlib.Data.List.MinMax
import TemplateMarkup.Template.Location
import TemplateMarkup.Proofs.Template.Numbering

namespace TemplateMarkup

open Markup (WrittenAttribute)

namespace Node

variable {ns ms : List Node} {pos : Nat}

/-- The first of some nodes whose span ends past an offset, or else the last of them. -/
def scan? (pos : Nat) (ns : List Node) : Option Node :=
  (ns.find? fun n => pos < n.head.span.stop).or ns.getLast?

structure Ordered (ns : List Node) : Prop where
  stop_le : ns.Pairwise fun m n => m.head.span.stop ≤ n.head.span.stop
  container : ∀ n ∈ ns, n.children ≠ [] → n.kind.isContainer

lemma Ordered.sublist (h : Ordered ms) (hs : ns.Sublist ms) : Ordered ns :=
  ⟨h.stop_le.sublist hs, fun n hn => h.container n (hs.subset hn)⟩

lemma Ordered.stop_le_getLast? (h : Ordered ns) {last : Node} (hl : ns.getLast? = some last) :
    ∀ n ∈ ns, n.head.span.stop ≤ last.head.span.stop := by
  obtain ⟨init, rfl⟩ := List.getLast?_eq_some_iff.1 hl
  intro n hn
  rcases List.mem_append.1 hn with hn | hn
  · exact (List.pairwise_append.1 h.stop_le).2.2 n hn last (List.mem_singleton_self last)
  · rw [List.mem_singleton.1 hn]

lemma scan?_cons_of_lt {n : Node} (h : pos < n.head.span.stop) : scan? pos (n :: ns) = some n := by
  rw [scan?, List.find?_cons_of_pos (by simpa using h)]
  rfl

lemma scan?_cons_of_le {n : Node} (h : n.head.span.stop ≤ pos) :
    scan? pos (n :: ns) = some ((scan? pos ns).getD n) := by
  rw [scan?, scan?, List.find?_cons_of_neg (by simpa using h), List.getLast?_cons]
  cases ns.find? fun m => pos < m.head.span.stop <;> rfl

lemma scan?_append_of_lt (h : ∃ n ∈ ns, pos < n.head.span.stop) :
    scan? pos (ns ++ ms) = scan? pos ns := by
  obtain ⟨n, hn, hpos⟩ := h
  have hsome : (ns.find? fun n => pos < n.head.span.stop).isSome := by
    rw [List.find?_isSome]
    exact ⟨n, hn, by simpa using hpos⟩
  obtain ⟨found, hfound⟩ := Option.isSome_iff_exists.1 hsome
  rw [scan?, scan?, List.find?_append, hfound]
  rfl

lemma scan?_append_of_le (h : ∀ n ∈ ns, n.head.span.stop ≤ pos) (hne : ms ≠ []) :
    scan? pos (ns ++ ms) = scan? pos ms := by
  have hnone : (ns.find? fun n => pos < n.head.span.stop) = none := by
    rw [List.find?_eq_none]
    intro n hn
    simpa using h n hn
  rw [scan?, scan?, List.find?_append, hnone, List.getLast?_append_of_ne_nil _ hne]
  rfl

lemma exists_scan?_eq_some (pos : Nat) (h : ns ≠ []) : ∃ n ∈ ns, scan? pos ns = some n := by
  rw [scan?]
  cases hf : ns.find? fun n => pos < n.head.span.stop with
  | some n => exact ⟨n, List.mem_of_find?_eq_some hf, rfl⟩
  | none => exact ⟨ns.getLast h, List.getLast_mem h, List.getLast?_eq_some_getLast h⟩

lemma preorders_ne_nil (h : ns ≠ []) : preorders ns ≠ [] := by
  obtain ⟨n, rest, rfl⟩ := List.exists_cons_of_ne_nil h
  rw [preorders, preorder_eq]
  simp

mutual

lemma outerStop_eq : ∀ n : Node, Ordered n.preorder →
    n.preorder.getLast?.map (fun m => m.head.span.stop) = some n.outerStop
  | ⟨head, children⟩, h => by
    rw [preorder] at h ⊢
    rw [List.getLast?_cons, Option.map_some, outerStop]
    by_cases hk : head.kind.isContainer
    · rw [if_pos hk, ← lastStop_eq head.span.stop children (h.sublist (List.sublist_cons_self ..))]
      cases (preorders children).getLast? <;> rfl
    · obtain rfl : children = [] := by
        by_contra hne
        exact hk (h.container _ (List.mem_cons_self ..) hne)
      rw [if_neg hk]
      rfl

lemma lastStop_eq (stop : Nat) : ∀ ns : List Node, Ordered (preorders ns) →
    ((preorders ns).getLast?.map fun m => m.head.span.stop).getD stop = lastStop stop ns
  | [], _ => rfl
  | n :: rest, h => by
    rw [preorders] at h ⊢
    rw [lastStop]
    by_cases hr : rest = []
    · rw [hr, preorders, List.append_nil, outerStop_eq n (h.sublist (List.sublist_append_left ..))]
      rfl
    · rw [if_neg (by simpa using hr), List.getLast?_append_of_ne_nil _ (preorders_ne_nil hr)]
      exact lastStop_eq stop rest (h.sublist (List.sublist_append_right ..))

end

lemma lt_outerStop_iff {n : Node} (h : Ordered n.preorder) :
    pos < n.outerStop ↔ ∃ m ∈ n.preorder, pos < m.head.span.stop := by
  obtain ⟨last, hl, hstop⟩ := Option.map_eq_some_iff.1 (outerStop_eq n h)
  rw [← hstop]
  constructor
  · exact fun hpos => ⟨last, List.mem_of_getLast? hl, hpos⟩
  · rintro ⟨m, hm, hpos⟩
    exact Nat.lt_of_lt_of_le hpos (h.stop_le_getLast? hl m hm)

mutual

lemma scan?_preorder (pos : Nat) : ∀ n : Node, Ordered n.preorder →
    scan? pos n.preorder = some (n.innermost pos)
  | ⟨head, children⟩, h => by
    rw [preorder] at h ⊢
    rw [innermost]
    by_cases hpos : pos < head.span.stop
    · rw [scan?_cons_of_lt hpos, if_neg (by simp [hpos])]
    rw [scan?_cons_of_le (Nat.le_of_not_lt hpos),
      scan?_preorders pos children (h.sublist (List.sublist_cons_self ..))]
    by_cases hk : head.kind.isContainer
    · rw [if_pos (by simpa [hk] using hpos)]
    · obtain rfl : children = [] := by
        by_contra hne
        exact hk (h.container _ (List.mem_cons_self ..) hne)
      rw [if_neg (by simp [hk])]
      rfl

lemma scan?_preorders (pos : Nat) : ∀ ns : List Node, Ordered (preorders ns) →
    scan? pos (preorders ns) = innermostOf pos ns
  | [], _ => rfl
  | n :: rest, h => by
    rw [preorders] at h ⊢
    rw [innermostOf]
    have hn := h.sublist (List.sublist_append_left n.preorder (preorders rest))
    by_cases hpos : pos < n.outerStop
    · rw [if_pos (by simp [hpos]), scan?_append_of_lt ((lt_outerStop_iff hn).1 hpos)]
      exact scan?_preorder pos n hn
    by_cases hr : rest = []
    · rw [if_pos (by simp [hr]), hr, preorders, List.append_nil]
      exact scan?_preorder pos n hn
    have hbefore : ∀ m ∈ n.preorder, m.head.span.stop ≤ pos := fun m hm =>
      Nat.le_of_not_lt fun hlt => hpos ((lt_outerStop_iff hn).2 ⟨m, hm, hlt⟩)
    rw [if_neg (by simp [hpos, hr]), scan?_append_of_le hbefore (preorders_ne_nil hr)]
    exact scan?_preorders pos rest (h.sublist (List.sublist_append_right ..))

end

def entryAt (pos : Nat) (n : Node) : Entry :=
  match (n.attributes.filter fun a => a.span.touches pos).argmax Attribute.id with
  | some a => .attr n a
  | none => .node n

end Node

def Template.scan? (t : Template) (pos : Nat) : Option Entry :=
  (Node.scan? pos t.content).map (Node.entryAt pos)

lemma find?_reverse_eq_argmax {as : List Attribute} (p : Attribute → Bool)
    (h : (as.map Attribute.id).Pairwise (· < ·)) :
    as.reverse.find? p = (as.filter p).argmax Attribute.id := by
  induction as using List.reverseRecOn with
  | nil => rfl
  | append_singleton as a ih =>
    rw [List.map_append, List.pairwise_append] at h
    obtain ⟨has, -, hlt⟩ := h
    rw [List.reverse_concat, List.filter_append]
    by_cases hp : p a
    · have hgreatest : ∀ b ∈ (as.filter p).argmax Attribute.id, b.id < a.id := fun b hb =>
        hlt b.id (List.mem_map_of_mem (List.mem_of_mem_filter (List.argmax_mem hb))) a.id
          (by simp)
      rw [List.find?_cons_of_pos hp, List.filter_cons_of_pos hp, List.filter_nil,
        List.argmax_concat]
      cases hb : (as.filter p).argmax Attribute.id with
      | none => rfl
      | some b => exact (if_pos (hgreatest b hb)).symm
    · rw [List.find?_cons_of_neg hp, List.filter_cons_of_neg hp, List.filter_nil, List.append_nil]
      exact ih has

variable {source : Text}

lemma content_eq_preorders (source : Text) :
    (parse source).content = Node.preorders (parse source).root.children := by
  have hroot : (parse source).root.kind = .root := by
    rw [Node.kind, parse_root_head]
    rfl
  have hheads := parse_nodes_heads source
  rw [Template.nodes_eq, Node.preorder_eq, List.map_cons] at hheads
  rw [Template.content, Template.nodes_eq, Node.preorder_eq,
    List.filter_cons_of_neg (by simp [hroot]), List.filter_eq_self]
  intro n hn
  have hh := List.mem_map_of_mem (f := Node.head) hn
  rw [(List.cons.inj hheads).2] at hh
  obtain ⟨p, -, hhead⟩ := List.mem_map.1 hh
  have hk : n.kind ≠ .root := by
    rw [Node.kind, ← hhead]
    exact p.kind_ne_root
  simpa using hk

lemma content_eq_nil_iff : (parse source).content = [] ↔ source = [] := by
  have hlen := congrArg List.length (content_heads source)
  simp only [List.length_map] at hlen
  rw [← List.length_eq_zero_iff, hlen, List.length_eq_zero_iff]
  constructor
  · intro h
    have hitems := Builder.map_item_placed (Markup.items source) Builder.start
    rw [show Builder.start.placed (Markup.items source) = [] from h] at hitems
    rw [← Markup.chars_items source, ← hitems]
    rfl
  · rintro rfl
    rw [placed, Markup.items_nil]
    rfl

lemma preorder_ordered (hs : Text.size source < Word.bound) :
    Node.Ordered (parse source).root.preorder := by
  constructor
  · have hheads : ((parse source).nodes.map Node.head).Pairwise fun g h =>
        g.span.stop ≤ h.span.stop := by
      rw [parse_nodes_heads, List.pairwise_cons, List.pairwise_map]
      refine ⟨fun _ _ => Nat.zero_le _, (placed_pairwise source).imp_of_mem ?_⟩
      intro p q hp hq h
      have hextent := p.start_add_extent_le
      have hstop := h.stop_le
      rw [Placed.head_span hp hs, Placed.head_span hq hs]
      simp only [Placed.start] at hextent ⊢
      omega
    rwa [List.pairwise_map, Template.nodes_eq] at hheads
  · intro n hn hne
    rw [← Template.nodes_eq] at hn
    obtain ⟨c, hc⟩ := List.exists_mem_of_ne_nil _ hne
    exact isContainer_of_mem_children hn hc

lemma ids_attributes_increase (hs : Text.size source < Word.bound) {n : Node}
    (hn : n ∈ (parse source).nodes) : (n.attributes.map Attribute.id).Pairwise (· < ·) := by
  rw [Template.nodes_eq] at hn
  have hids : (n.attributes.map Attribute.id).Sublist (parse source).root.ids := by
    rw [Node.ids_eq, List.flatMap]
    refine List.Sublist.trans ?_ (List.sublist_flatten_of_mem (List.mem_map_of_mem hn))
    exact List.sublist_cons_self ..
  rw [ids_eq_range hs] at hids
  exact List.pairwise_lt_range.sublist hids

lemma scan?_content (hs : Text.size source < Word.bound) (pos : Nat) :
    Node.scan? pos (parse source).content = Node.innermostOf pos (parse source).root.children := by
  have h := preorder_ordered hs
  rw [Node.preorder_eq] at h
  rw [content_eq_preorders]
  exact Node.scan?_preorders pos _ (h.sublist (List.sublist_cons_self ..))

lemma innermost_root (source : Text) (pos : Nat) : (parse source).root.innermost pos =
    (Node.innermostOf pos (parse source).root.children).getD (parse source).root := by
  have hroot := parse_root_head source
  cases ht : (parse source).root with
  | mk head children =>
    rw [ht] at hroot
    obtain rfl : head = rootHead := hroot
    rw [Node.innermost, if_pos (by simp [rootHead, NodeKind.isContainer, Span.empty])]

lemma attributeAt?_eq (hs : Text.size source < Word.bound) {n : Node}
    (hn : n ∈ (parse source).nodes) (pos : Nat) :
    (match (Entry.node n).attributeAt? pos with
      | some a => some (.attr n a)
      | none => some (.node n)) = some (n.entryAt pos) := by
  have h := find?_reverse_eq_argmax (fun a => a.span.touches pos) (ids_attributes_increase hs hn)
  rw [Entry.attributeAt?, show (Entry.node n).attributes = n.attributes from rfl, h, Node.entryAt]
  split <;> rfl

/-- The search for an offset, past the end of the source or not, agrees with the scan of all nodes. -/
theorem entryAt_eq_scan (source : Text) (hs : Text.size source < Word.bound) (pos : Nat) :
    ((parse source).content.map fun n => n.head.id).Pairwise (· < ·) ∧
    (parse source).entryAt? pos = (parse source).scan? pos ∧
    ((parse source).entryAt? pos = none ↔ source = []) := by
  have hcontent := content_eq_preorders source
  refine ⟨content_ids_increase hs, ?_⟩
  by_cases hempty : (parse source).root.children = []
  · have hnil : (parse source).content = [] := by
      rw [hcontent, hempty]
      rfl
    have hnone : (parse source).entryAt? pos = none := by
      rw [Template.entryAt?, Template.isEmpty, hempty]
      rfl
    rw [hnone, Template.scan?, hnil]
    exact ⟨rfl, iff_of_true rfl (content_eq_nil_iff.1 hnil)⟩
  · have hne : (parse source).content ≠ [] := by
      rw [hcontent]
      exact Node.preorders_ne_nil hempty
    obtain ⟨n, hn, hscan⟩ := Node.exists_scan?_eq_some pos hne
    have hinner : (parse source).root.innermost pos = n := by
      rw [innermost_root, ← scan?_content hs, hscan]
      rfl
    have hentry : (parse source).entryAt? pos = some (n.entryAt pos) := by
      have hfilled : (parse source).isEmpty = false := by simpa [Template.isEmpty] using hempty
      rw [Template.entryAt?, hfilled, ← attributeAt?_eq hs (List.mem_of_mem_filter hn) pos, hinner]
      rfl
    rw [hentry, Template.scan?, hscan]
    exact ⟨rfl, iff_of_false (by simp) fun h => hne (content_eq_nil_iff.2 h)⟩

theorem entryAt_eq_scan_past_end :
    Text.size ['<', 'a', ' ', 'b', '>', '<', '>', ' '] < Word.bound ∧
    ([3, 4, 5, 9].map fun pos =>
      ((parse ['<', 'a', ' ', 'b', '>', '<', '>', ' ']).entryAt? pos).map Entry.id) =
        [some 2, some 2, some 4, some 4] ∧
    (parse ['<', 'a', ' ', 'b', '>', '<', '>', ' ']).entryAt? 9 =
      (parse ['<', 'a', ' ', 'b', '>', '<', '>', ' ']).scan? 9 :=
  ⟨by decide, by decide +kernel, (entryAt_eq_scan _ (by decide) 9).2.1⟩

end TemplateMarkup

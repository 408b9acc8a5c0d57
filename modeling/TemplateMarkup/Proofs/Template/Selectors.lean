import TemplateMarkup.Proofs.Template.Walk

namespace TemplateMarkup

namespace Naming

variable {name x : Text}

lemma bare_marked (x : Text) : bare (dataMark ++ x) = x := by
  rw [bare, if_pos (List.isPrefixOf_iff_prefix.2 (List.prefix_append ..)), List.drop_left]

lemma bare_of_not_marked (h : ¬ dataMark <+: name) : bare name = name :=
  if_neg fun hmark => h (List.isPrefixOf_iff_prefix.1 hmark)

lemma short_of_not_cut (h : ¬ name <+: dataMark) : short name = bare name :=
  if_neg fun hcut => h (List.isPrefixOf_iff_prefix.1 hcut)

lemma not_cut_of_marked (hx : x ≠ []) : ¬ dataMark ++ x <+: dataMark := by
  intro h
  have hle := h.length_le
  rw [List.length_append] at hle
  exact hx (List.length_eq_zero_iff.1 (by omega))

lemma short_eq_iff (hx : x ≠ []) (hmark : ¬ dataMark <+: x) (hcut : ¬ x <+: dataMark) :
    short name = x ↔ name = x ∨ name = dataMark ++ x := by
  constructor
  · intro h
    -- Of a name that stops inside `data-` nothing is left, and `x` is not empty.
    by_cases hname : name <+: dataMark
    · rw [short, if_pos (List.isPrefixOf_iff_prefix.2 hname)] at h
      exact absurd h.symm hx
    rw [short_of_not_cut hname] at h
    by_cases hmarked : dataMark <+: name
    · obtain ⟨rest, rfl⟩ := hmarked
      rw [bare_marked] at h
      rw [h]
      exact Or.inr rfl
    · rw [bare_of_not_marked hmarked] at h
      exact Or.inl h
  · rintro (rfl | rfl)
    · rw [short_of_not_cut hcut, bare_of_not_marked hmark]
    · rw [short_of_not_cut (not_cut_of_marked hx), bare_marked]

end Naming

def Template.owner? (t : Template) (e : Entry) : Option Entry :=
  e.parent?.bind t.entry?

namespace Template

variable {t : Template} {n : Node} {a : Attribute}

lemma mem_walk_attr : .attr n a ∈ t.walk ↔ n ∈ t.nodes ∧ a ∈ n.attributes := by
  rw [t.walk_perm_entries.mem_iff]
  constructor
  · intro h
    rcases mem_entries_cases h with ⟨m, -, he⟩ | ⟨m, hm, b, hb, he⟩
    · cases he
    · obtain ⟨rfl, rfl⟩ := Entry.attr.inj he
      exact ⟨hm, hb⟩
  · rintro ⟨hn, ha⟩
    rw [nodes_eq] at hn
    rw [entries_eq, List.mem_flatMap]
    exact ⟨n, hn, List.mem_cons_of_mem _ (List.mem_map_of_mem ha)⟩

lemma node_mem_entries (hn : n ∈ t.nodes) : .node n ∈ t.entries := by
  rw [nodes_eq] at hn
  rw [entries_eq, List.mem_flatMap]
  exact ⟨n, hn, List.mem_cons_self ..⟩

lemma filter_walk_congr {p q : Entry → Bool} (hp : ∀ n, p (.node n) = false)
    (hq : ∀ n, q (.node n) = false)
    (h : ∀ n ∈ t.nodes, ∀ a ∈ n.attributes, p (.attr n a) = q (.attr n a)) :
    t.walk.filter p = t.walk.filter q := by
  apply List.filter_congr
  intro e he
  cases e with
  | node n => rw [hp, hq]
  | attr n a =>
    obtain ⟨hn, ha⟩ := mem_walk_attr.1 he
    exact h n hn a ha

lemma select_some {x : Text} (tag : Text) (hx : x ≠ []) :
    t.select tag (some x) = t.attributesOf tag x :=
  if_neg (by simpa using hx)

end Template

lemma Entry.isAttributeBeside_singleton {n : Node} {a : Attribute} (x : Text) (ha : a ∈ n.attributes) :
    Entry.isAttributeBeside x [x] (.attr n a) = (Naming.short a.name == x) := by
  rw [Entry.isAttributeBeside, List.all_cons, List.all_nil, Bool.and_true, Bool.and_eq_left_iff_imp]
  intro h
  exact List.any_eq_true.2 ⟨a, ha, h⟩

variable {source : Text} {n : Node} {a : Attribute}

lemma entries_ids_nodup (hs : Text.size source < Word.bound) :
    ((parse source).entries.map Entry.id).Nodup := by
  rw [(map_id_entries source).trans (ids_eq_range hs)]
  exact List.nodup_range

lemma find_id (hs : Text.size source < Word.bound) {e : Entry} (he : e ∈ (parse source).entries) :
    Template.entry? (parse source) e.id = some e := by
  cases hfound : Template.entry? (parse source) e.id with
  | none => simpa using List.find?_eq_none.1 hfound e he
  | some d =>
    have hid : d.id = e.id := by simpa using List.find?_some hfound
    rw [List.inj_on_of_nodup_map (entries_ids_nodup hs) (List.mem_of_find?_eq_some hfound) he hid]

lemma owner?_attr (hs : Text.size source < Word.bound) (hn : n ∈ (parse source).nodes)
    (ha : a ∈ n.attributes) : (parse source).owner? (.attr n a) = some (.node n) := by
  have howner : (Entry.attr n a).parent? = some (Entry.node n).id :=
    congrArg some (owner_of_mem_attributes hs hn ha).1
  rw [Template.owner?, howner]
  exact find_id hs (Template.node_mem_entries hn)

lemma owner_inj (hs : Text.size source < Word.bound) {m : Node} {b : Attribute}
    (hn : n ∈ (parse source).nodes) (ha : a ∈ n.attributes) (hm : m ∈ (parse source).nodes)
    (hb : b ∈ m.attributes) (h : b.owner = a.owner) : m = n := by
  rw [(owner_of_mem_attributes hs hn ha).1, (owner_of_mem_attributes hs hm hb).1] at h
  exact Entry.node.inj (List.inj_on_of_nodup_map (entries_ids_nodup hs)
    (Template.node_mem_entries hm) (Template.node_mem_entries hn) h)

lemma any_attributesBeside (hs : Text.size source < Word.bound) (hn : n ∈ (parse source).nodes)
    (ha : a ∈ n.attributes) (x : Text) :
    (((parse source).attributesBeside [x]).any fun d => d.parent? == some a.owner) =
      n.attributes.any (Naming.short ·.name == x) := by
  rw [Bool.eq_iff_iff, List.any_eq_true, List.any_eq_true]
  constructor
  · rintro ⟨d, hd, howner⟩
    obtain ⟨hwalk, hname⟩ := List.mem_filter.1 hd
    cases d with
    | node m => cases hname
    | attr m b =>
      -- Both attributes name one parent, so the tags that list them are one tag.
      obtain ⟨hm, hb⟩ := Template.mem_walk_attr.1 hwalk
      rw [Entry.isAttributeBeside_singleton x hb] at hname
      obtain rfl := owner_inj hs hn ha hm hb (Option.some.inj (eq_of_beq howner))
      exact ⟨b, hb, hname⟩
  · rintro ⟨b, hb, hname⟩
    have howner : b.owner = a.owner :=
      (owner_of_mem_attributes hs hn hb).1.trans (owner_of_mem_attributes hs hn ha).1.symm
    refine ⟨.attr n b, List.mem_filter.2 ⟨Template.mem_walk_attr.2 ⟨hn, hb⟩, ?_⟩, ?_⟩
    · rwa [Entry.isAttributeBeside_singleton x hb]
    · rw [Entry.parent?, howner]
      exact beq_self_eq_true _

lemma select_eq_attributesBeside (hs : Text.size source < Word.bound) (tag : Text) {x : Text}
    (hx : x ≠ []) (hmark : ¬ Naming.dataMark <+: x) (hcut : ¬ x <+: Naming.dataMark) :
    (parse source).select tag (some x) = ((parse source).attributesBeside [x]).filter fun e =>
      ((parse source).owner? e).bind Entry.name? == some tag := by
  rw [Template.select_some tag hx, Template.attributesOf, Naming.bare_of_not_marked hmark,
    Template.attributesBeside, List.filter_filter]
  refine Template.filter_walk_congr (fun _ => rfl) (fun _ => Bool.and_false _) fun n hn a ha => ?_
  have hname : (a.name == x || a.name == Naming.dataMark ++ x) = (Naming.short a.name == x) := by
    rw [Bool.eq_iff_iff, Bool.or_eq_true, beq_iff_eq, beq_iff_eq, beq_iff_eq,
      Naming.short_eq_iff hx hmark hcut]
  rw [Entry.isAttributeBeside_singleton x ha, owner?_attr hs hn ha, Entry.isAttributeOf, hname,
    Bool.and_comm]
  rfl

lemma attributesBeside_cons (hs : Text.size source < Word.bound) (first : Text) (names : List Text) :
    (parse source).attributesBeside (first :: names) =
      ((parse source).attributesBeside [first]).filter fun e => names.all fun x =>
        ((parse source).attributesBeside [x]).any fun d => d.parent? == e.parent? := by
  rw [Template.attributesBeside, Template.attributesBeside, List.filter_filter]
  refine Template.filter_walk_congr (fun _ => rfl) (fun _ => Bool.and_false _) fun n hn a ha => ?_
  have hfirst := Entry.isAttributeBeside_singleton first ha
  have hall : (names.all fun x => ((parse source).attributesBeside [x]).any fun d =>
      d.parent? == (Entry.attr n a).parent?) =
        names.all fun x => n.attributes.any (Naming.short ·.name == x) := by
    congr 1
    funext x
    exact any_attributesBeside hs hn ha x
  rw [hall, Bool.and_comm, Entry.isAttributeBeside, Entry.isAttributeBeside, List.all_cons, List.all_cons,
    List.all_nil, Bool.and_true, Bool.and_assoc]

/-- An attribute's parent is the tag that lists it. Either query for one name finds the same attributes; a
query for several keeps those whose tag is also the tag of one of each other name, in any order. -/
theorem selectors_agree (source : Text) (hs : Text.size source < Word.bound) :
    (∀ n ∈ (parse source).nodes, ∀ a ∈ n.attributes,
      (parse source).owner? (.attr n a) = some (.node n)) ∧
    (∀ tag x, x ≠ [] → ¬ Naming.dataMark <+: x → ¬ (x <+: Naming.dataMark ∧ x ≠ Naming.dataMark) →
      (parse source).select tag (some x) = (parse source).select tag (some (Naming.dataMark ++ x)) ∧
      (parse source).select tag (some x) = ((parse source).attributesBeside [x]).filter fun e =>
        ((parse source).owner? e).bind Entry.name? == some tag) ∧
    (∀ first names, (parse source).attributesBeside (first :: names) =
      ((parse source).attributesBeside [first]).filter fun e => names.all fun x =>
        ((parse source).attributesBeside [x]).any fun d => d.parent? == e.parent?) ∧
    ∀ first names others, (∀ x, x ∈ names ↔ x ∈ others) →
      (parse source).attributesBeside (first :: names) =
        (parse source).attributesBeside (first :: others) := by
  refine ⟨fun n hn a ha => owner?_attr hs hn ha, fun tag x hx hmark hproper => ⟨?_, ?_⟩,
    attributesBeside_cons hs, fun first names others hsame => ?_⟩
  · have hmarked : Naming.dataMark ++ x ≠ [] := List.append_ne_nil_of_right_ne_nil _ hx
    rw [Template.select_some tag hx, Template.select_some tag hmarked, Template.attributesOf,
      Template.attributesOf, Naming.bare_of_not_marked hmark, Naming.bare_marked]
  · refine select_eq_attributesBeside hs tag hx hmark fun hcut => hproper ⟨hcut, ?_⟩
    rintro rfl
    exact hmark List.prefix_rfl
  · rw [attributesBeside_cons hs first names, attributesBeside_cons hs first others]
    congr 1
    funext e
    rw [Bool.eq_iff_iff, List.all_eq_true, List.all_eq_true]
    exact forall_congr' fun x => imp_congr_left (hsame x)

theorem selectors_agree_two_spellings :
    Text.size ['<', 'p', ' ', 'a', ' ', 'd', 'a', 't', 'a', '-', 'a', ' ', 'b', '>', '<', 'q', ' ', 'a',
      '>'] < Word.bound ∧
    ((parse ['<', 'p', ' ', 'a', ' ', 'd', 'a', 't', 'a', '-', 'a', ' ', 'b', '>', '<', 'q', ' ', 'a',
      '>']).select ['p'] (some ['a'])).map Entry.id = [2, 3] ∧
    (parse ['<', 'p', ' ', 'a', ' ', 'd', 'a', 't', 'a', '-', 'a', ' ', 'b', '>', '<', 'q', ' ', 'a',
      '>']).select ['p'] (some ['a']) =
    (parse ['<', 'p', ' ', 'a', ' ', 'd', 'a', 't', 'a', '-', 'a', ' ', 'b', '>', '<', 'q', ' ', 'a',
      '>']).select ['p'] (some (Naming.dataMark ++ ['a'])) ∧
    ((parse ['<', 'p', ' ', 'a', ' ', 'd', 'a', 't', 'a', '-', 'a', ' ', 'b', '>', '<', 'q', ' ', 'a',
      '>']).attributesBeside [['a'], ['b'], ['b']]).map Entry.id = [2, 3] ∧
    (parse ['<', 'p', ' ', 'a', ' ', 'd', 'a', 't', 'a', '-', 'a', ' ', 'b', '>', '<', 'q', ' ', 'a',
      '>']).attributesBeside [['a'], ['b'], ['b']] =
    (parse ['<', 'p', ' ', 'a', ' ', 'd', 'a', 't', 'a', '-', 'a', ' ', 'b', '>', '<', 'q', ' ', 'a',
      '>']).attributesBeside [['a'], ['b']] := by
  have h := selectors_agree ['<', 'p', ' ', 'a', ' ', 'd', 'a', 't', 'a', '-', 'a', ' ', 'b', '>', '<',
    'q', ' ', 'a', '>'] (by decide)
  refine ⟨by decide, by decide +kernel, ?_, by decide +kernel, ?_⟩
  · exact (h.2.1 ['p'] ['a'] (by decide) (by decide) (by decide)).1
  · exact h.2.2.2 ['a'] [['b'], ['b']] [['b']] fun x => by simp

end TemplateMarkup

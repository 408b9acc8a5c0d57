import TemplateMarkup.Proofs.Template.Coverage
import TemplateMarkup.Proofs.Template.OpenTags

namespace TemplateMarkup

open Markup (Item Piece WrittenAttribute)

namespace Markup

namespace WrittenAttribute

lemma place_id (id owner pos : Nat) (a : WrittenAttribute) :
    (a.place id owner pos).id = Word.wrap id := by
  rw [place]
  split <;> rfl

lemma place_owner (id owner pos : Nat) (a : WrittenAttribute) :
    (a.place id owner pos).owner = Word.wrap owner := by
  rw [place]
  split <;> rfl

lemma map_id_placeAll (owner id pos : Nat) (as : List WrittenAttribute) :
    (placeAll owner id pos as).map Attribute.id = (List.range' id as.length).map Word.wrap := by
  induction as generalizing id pos with
  | nil => rfl
  | cons a as ih =>
    rw [placeAll, List.map_cons, ih, List.length_cons, List.range'_succ, List.map_cons, place_id]

lemma length_placeAll (owner id pos : Nat) (as : List WrittenAttribute) :
    (placeAll owner id pos as).length = as.length := by
  have h := congrArg List.length (map_id_placeAll owner id pos as)
  simpa using h

lemma owner_of_mem_placeAll {owner id pos : Nat} {as : List WrittenAttribute} {a : Attribute}
    (h : a ∈ placeAll owner id pos as) : a.owner = Word.wrap owner := by
  induction as generalizing id pos with
  | nil => cases h
  | cons b as ih =>
    rcases List.mem_cons.1 h with rfl | h
    · exact place_owner ..
    · exact ih h

end WrittenAttribute

namespace Piece

lemma attributes_kind_tag (id start : Nat) (written : WrittenTag) :
    ((tag written).kind id start).attributes = WrittenAttribute.placeAll id (id + 1)
      (start + 1 + Text.size written.name) written.attributes := by
  simp only [kind]
  split <;> rfl

lemma mem_attributes_kind {id start : Nat} {piece : Piece} {a : Attribute}
    (h : a ∈ (piece.kind id start).attributes) : ∃ written, piece = .tag written ∧
      a ∈ WrittenAttribute.placeAll id (id + 1) (start + 1 + Text.size written.name)
        written.attributes := by
  cases piece with
  | tag written => exact ⟨written, rfl, attributes_kind_tag id start written ▸ h⟩
  | _ => cases h

lemma map_id_attributes_kind (id start : Nat) (piece : Piece) :
    (piece.kind id start).attributes.map Attribute.id =
      (List.range' (id + 1) piece.attributeCount).map Word.wrap := by
  cases piece with
  | tag written => rw [attributes_kind_tag, WrittenAttribute.map_id_placeAll, attributeCount]
  | _ => rfl

end Piece

end Markup

def Head.ids (h : Head) : List Nat :=
  h.id :: h.kind.attributes.map Attribute.id

def Entry.listed (e : Entry) : List Nat :=
  e.attributes.map Attribute.id ++ e.children.map fun c => c.head.id

namespace Node

mutual

def ids : Node → List Nat
  | ⟨head, children⟩ => head.id :: (head.kind.attributes.map Attribute.id ++ idsAll children)

def idsAll : List Node → List Nat
  | [] => []
  | n :: rest => n.ids ++ idsAll rest

end

mutual

lemma ids_eq : ∀ n : Node, n.ids = n.preorder.flatMap fun m => m.head.ids
  | ⟨head, children⟩ => by
    rw [ids, idsAll_eq children, preorder, List.flatMap_cons, Head.ids, List.cons_append]

lemma idsAll_eq : ∀ ns : List Node, idsAll ns = (preorders ns).flatMap fun m => m.head.ids
  | [] => rfl
  | n :: rest => by rw [idsAll, ids_eq n, idsAll_eq rest, preorders, List.flatMap_append]

end

lemma map_id_entries (n : Node) : n.entries.map Entry.id = n.head.ids := by
  rw [entries, List.map_cons, List.map_map]
  rfl

lemma flatMap_listed_entries (n : Node) :
    n.entries.flatMap Entry.listed = (Entry.node n).listed := by
  have hattributes : (n.attributes.map (Entry.attr n)).flatMap Entry.listed = [] := by
    simp [Entry.listed, Entry.attributes, Entry.children]
  rw [entries, List.flatMap_cons, hattributes, List.append_nil]

mutual

lemma listed_perm_ids : ∀ n : Node,
    (n.head.id :: n.preorder.flatMap fun m => (Entry.node m).listed).Perm n.ids
  | ⟨head, children⟩ => by
    rw [ids, preorder, List.flatMap_cons, Entry.listed, List.append_assoc]
    apply List.Perm.cons
    apply List.Perm.append_left
    exact listed_perm_idsAll children

lemma listed_perm_idsAll : ∀ ns : List Node,
    ((ns.map fun n => n.head.id) ++ (preorders ns).flatMap fun m => (Entry.node m).listed).Perm
      (idsAll ns)
  | [] => List.Perm.refl _
  | n :: rest => by
    rw [idsAll, preorders, List.flatMap_append, List.map_cons, List.cons_append]
    refine List.Perm.trans ?_ ((listed_perm_ids n).append (listed_perm_idsAll rest))
    rw [List.cons_append]
    apply List.Perm.cons
    rw [← List.append_assoc, ← List.append_assoc]
    exact List.perm_append_comm.append_right _

end

mutual

lemma exists_parent_of_mem_preorder {m : Node} : ∀ n : Node, m ∈ n.preorder →
    m = n ∨ ∃ p ∈ n.preorder, m ∈ p.children
  | ⟨head, children⟩, h => by
    rw [preorder] at h ⊢
    rcases List.mem_cons.1 h with rfl | h
    · exact Or.inl rfl
    · right
      rcases exists_parent_of_mem_preorders children h with h | ⟨p, hp, h⟩
      · exact ⟨⟨head, children⟩, List.mem_cons_self .., h⟩
      · exact ⟨p, List.mem_cons_of_mem _ hp, h⟩

lemma exists_parent_of_mem_preorders {m : Node} : ∀ ns : List Node, m ∈ preorders ns →
    m ∈ ns ∨ ∃ p ∈ preorders ns, m ∈ p.children
  | [], h => by cases h
  | n :: rest, h => by
    rw [preorders] at h ⊢
    rcases List.mem_append.1 h with h | h
    · rcases exists_parent_of_mem_preorder n h with rfl | ⟨p, hp, h⟩
      · exact Or.inl (List.mem_cons_self ..)
      · exact Or.inr ⟨p, List.mem_append_left _ hp, h⟩
    · rcases exists_parent_of_mem_preorders rest h with h | ⟨p, hp, h⟩
      · exact Or.inl (List.mem_cons_of_mem n h)
      · exact Or.inr ⟨p, List.mem_append_right _ hp, h⟩

end

end Node

namespace Builder

variable {b d : Builder} {item : Item}

def Numbered (b : Builder) : Prop :=
  ∀ h ∈ b.root.head :: b.opened.map Frame.head, h.id < b.nextId

lemma numbered_start : Numbered start := by
  simp [Numbered, start, rootHead]

lemma Numbered.step (hb : b.Numbered) (h : Step b item d) : d.Numbered := by
  have hroot := h.root_head_eq
  have hid := h.nextId_eq
  have hkeep : ∀ h ∈ b.root.head :: b.opened.map Frame.head, h.id < d.nextId := by
    intro h hh
    have := hb h hh
    omega
  intro head hh
  rw [hroot] at hh
  rcases List.mem_cons.1 hh with rfl | hh
  · exact hkeep _ (List.mem_cons_self ..)
  cases h with
  | push hk =>
    rcases List.mem_cons.1 hh with rfl | hh
    · have hword : (b.nextHead item).id ≤ b.nextId := Nat.mod_le _ _
      exact Nat.lt_of_le_of_lt hword (by omega)
    · exact hkeep head (List.mem_cons_of_mem _ hh)
  | pop hk =>
    rw [pop_heads, append_heads] at hh
    exact hkeep head (List.mem_cons_of_mem _ (List.mem_of_mem_tail hh))
  | stray hk hn hv =>
    rw [append_heads] at hh
    exact hkeep head (List.mem_cons_of_mem _ hh)
  | leaf hs he hv =>
    rw [append_heads] at hh
    exact hkeep head (List.mem_cons_of_mem _ hh)

lemma Numbered.current_lt (hb : b.Numbered) : b.current.head.id < b.nextId := by
  apply hb
  rw [current]
  cases b.opened with
  | nil => exact List.mem_cons_self ..
  | cons f rest => exact List.mem_cons_of_mem _ (List.mem_cons_self ..)

lemma Framed.isContainer_current (hb : b.Framed) : b.current.head.kind.isContainer := by
  rcases hb.current_cases with ⟨-, hc, -⟩ | ⟨-, -, attributes, hc⟩
  · rw [hc]
    rfl
  · rw [hc]
    rfl

lemma placed_top (found : List Item) (b : Builder) (hn : b.Numbered) (hf : b.Framed) :
    ∀ p ∈ b.placed found, p.top.id < p.id ∧ p.top.kind.isContainer := by
  induction found generalizing b with
  | nil => simp [placed]
  | cons item found ih =>
    intro p hp
    rcases List.mem_cons.1 hp with rfl | hp
    · exact ⟨hn.current_lt, hf.isContainer_current⟩
    · exact ih (b.add item) (hn.step (add_step b item)) (hf.step (add_step b item)) p hp

lemma nextId_foldl (found : List Item) (b : Builder) : ∃ n,
    (found.foldl add b).nextId = b.nextId + n ∧
      (b.placed found).flatMap (fun p => List.range' p.id (p.item.piece.attributeCount + 1)) =
        List.range' b.nextId n := by
  induction found generalizing b with
  | nil => exact ⟨0, rfl, rfl⟩
  | cons item found ih =>
    obtain ⟨n, hn, hids⟩ := ih (b.add item)
    have hnext := (add_step b item).nextId_eq
    refine ⟨item.piece.attributeCount + 1 + n, ?_, ?_⟩
    · rw [List.foldl_cons, hn, hnext]
      omega
    · rw [placed, List.flatMap_cons, hids, hnext, Nat.add_assoc b.nextId, Nat.add_comm 1,
        List.range'_append_1]

lemma nextId_le (cs : Text) : ∀ b : Builder, b.nextId ≤ b.offset + 1 →
    ((Markup.items cs).foldl add b).nextId ≤ b.offset + Text.size cs + 1 := by
  induction cs using Markup.items_induction with
  | nil => exact fun b hb => by simpa using hb
  | cons cs item rest hr ih =>
    intro b hb
    have hcount := Item.attributeCount_lt_of_read? hr
    have hsize := congrArg Text.size (Item.chars_of_read? hr)
    have hoffset := (add_step b item).offset_eq
    have hnext := (add_step b item).nextId_eq
    have hrest := ih (b.add item) (by omega)
    rw [Text.size_append] at hsize
    rw [Markup.items_of_read? hr, List.foldl_cons]
    omega

end Builder

variable {source : Text}

lemma nextId_built_le (source : Text) : (built source).nextId ≤ Text.size source + 1 := by
  have h := Builder.nextId_le source Builder.start (Nat.le_refl 1)
  rwa [show Builder.start.offset = 0 from rfl, Nat.zero_add] at h

lemma Placed.head_ids (p : Placed) :
    p.head.ids = (List.range' p.id (p.item.piece.attributeCount + 1)).map Word.wrap := by
  have hattributes : p.head.kind.attributes.map Attribute.id =
      (List.range' (p.id + 1) p.item.piece.attributeCount).map Word.wrap :=
    Piece.map_id_attributes_kind ..
  rw [Head.ids, hattributes, List.range'_succ, List.map_cons]
  rfl

lemma ids_root (source : Text) :
    (parse source).root.ids = (List.range (built source).nextId).map Word.wrap := by
  obtain ⟨n, hn, hids⟩ := Builder.nextId_foldl (Markup.items source) Builder.start
  have hnext : (built source).nextId = n + 1 := by
    rw [built, hn, Nat.add_comm]
    rfl
  calc (parse source).root.ids
      = ((parse source).nodes.map Node.head).flatMap Head.ids := by
        rw [Node.ids_eq, Template.nodes_eq, List.flatMap_map]
    _ = 0 :: (placed source).flatMap fun p => p.head.ids := by
        rw [parse_nodes_heads, List.flatMap_cons, List.flatMap_map]
        rfl
    _ = 0 :: ((placed source).flatMap fun p =>
          List.range' p.id (p.item.piece.attributeCount + 1)).map Word.wrap := by
        rw [List.map_flatMap]
        simp only [Placed.head_ids]
    _ = 0 :: (List.range' 1 n).map Word.wrap := by rw [placed, hids]; rfl
    _ = (List.range (built source).nextId).map Word.wrap := by
        rw [hnext, List.range_eq_range', List.range'_succ, List.map_cons]
        rfl

lemma map_id_entries (source : Text) :
    (parse source).entries.map Entry.id = (parse source).root.ids := by
  rw [Template.entries_eq, List.map_flatMap, Node.ids_eq]
  simp only [Node.map_id_entries]

lemma length_entries (source : Text) : (parse source).entries.length = (built source).nextId := by
  have h := congrArg List.length ((map_id_entries source).trans (ids_root source))
  simpa using h

lemma total_add_stats (s : Markup.Stats) (piece : Piece) :
    (s.add piece.stats).total = s.total + (1 + piece.attributeCount) := by
  cases piece with
  | tag written =>
    simp only [Piece.stats, Piece.attributeCount]
    split <;> simp only [Markup.Stats.add, Markup.Stats.total, Markup.Stats.zero] <;> omega
  | _ =>
    simp only [Piece.stats, Piece.attributeCount, Markup.Stats.add, Markup.Stats.total,
      Markup.Stats.zero]
    omega

lemma nextId_foldl_total (found : List Item) (b : Builder) (s : Markup.Stats) :
    (found.foldl Builder.add b).nextId + s.total =
      b.nextId + (found.foldl (fun s item => s.add item.piece.stats) s).total := by
  induction found generalizing b s with
  | nil => rfl
  | cons item found ih =>
    have hrest := ih (b.add item) (s.add item.piece.stats)
    have hnext := (Builder.add_step b item).nextId_eq
    have htotal := total_add_stats s item.piece
    rw [List.foldl_cons, List.foldl_cons]
    omega

lemma stats_total (source : Text) :
    (parse source).stats.total + 1 = (parse source).entries.length := by
  have h := nextId_foldl_total (Markup.items source) Builder.start Markup.Stats.zero
  rw [length_entries, Nat.add_comm]
  exact h.symm

lemma entries_parse (source : Text) : (parse source).entries =
    .node (parse source).root ::
      (Node.preorders (parse source).root.children).flatMap Node.entries := by
  rw [Template.entries_eq, Node.preorder_eq, List.flatMap_cons, Node.entries, Node.attributes,
    parse_root_head]
  rfl

lemma nextId_built_pos (source : Text) : 0 < (built source).nextId := by
  rw [← length_entries, entries_parse]
  exact Nat.succ_pos _

lemma ids_eq_range (hs : Text.size source < Word.bound) :
    (parse source).root.ids = List.range (parse source).entries.length := by
  have hnext := nextId_built_le source
  rw [ids_root, length_entries]
  refine (List.map_congr_left fun i hi => ?_).trans (List.map_id _)
  exact Word.wrap_of_lt (by have := List.mem_range.1 hi; omega)

lemma listed_perm (hs : Text.size source < Word.bound) :
    ((parse source).entries.flatMap Entry.listed).Perm
      (List.range' 1 ((parse source).entries.length - 1)) := by
  have hlisted : (parse source).entries.flatMap Entry.listed =
      (parse source).root.preorder.flatMap fun n => (Entry.node n).listed := by
    rw [Template.entries_eq, List.flatMap_assoc]
    simp only [Node.flatMap_listed_entries]
  have hlen : (parse source).entries.length = (parse source).entries.length - 1 + 1 := by
    have hpos := nextId_built_pos source
    rw [length_entries]
    omega
  have hperm := Node.listed_perm_ids (parse source).root
  rw [ids_eq_range hs, hlen, List.range_eq_range', List.range'_succ, parse_root_head] at hperm
  rw [hlisted]
  exact hperm.cons_inv

lemma exists_placed_of_mem_children {p c : Node} (hp : p ∈ (parse source).nodes)
    (hc : c ∈ p.children) : ∃ q ∈ placed source, q.top = p.head ∧ q.head = c.head := by
  have hlink : (p.head, c.head) ∈ (parse source).root.links := by
    rw [Template.nodes_eq] at hp
    exact (Node.mem_links _ _).2 ⟨p, hp, c, hc, rfl⟩
  rw [parse_links] at hlink
  obtain ⟨q, hq, he⟩ := List.mem_map.1 hlink
  exact ⟨q, hq, congrArg Prod.fst he, congrArg Prod.snd he⟩

lemma placed_top {q : Placed} (hq : q ∈ placed source) : q.top.id < q.id ∧ q.top.kind.isContainer :=
  Builder.placed_top (Markup.items source) Builder.start Builder.numbered_start
    Builder.framed_start q hq

lemma isContainer_of_mem_children {p c : Node} (hp : p ∈ (parse source).nodes)
    (hc : c ∈ p.children) : p.kind.isContainer := by
  obtain ⟨q, hq, htop, -⟩ := exists_placed_of_mem_children hp hc
  have h := (placed_top hq).2
  rwa [htop] at h

lemma parent_of_mem_children (hs : Text.size source < Word.bound) {p c : Node}
    (hp : p ∈ (parse source).nodes) (hc : c ∈ p.children) :
    c.head.parent = some p.head.id ∧ p.head.id < c.head.id := by
  obtain ⟨q, hq, htop, hhead⟩ := exists_placed_of_mem_children hp hc
  have hlt := (placed_top hq).1
  rw [← Placed.head_id hq hs, htop, hhead] at hlt
  refine ⟨?_, hlt⟩
  rw [← hhead, ← htop]
  rfl

lemma head_cases_of_mem_nodes {n : Node} (h : n ∈ (parse source).nodes) :
    n.head = rootHead ∨ ∃ p ∈ placed source, p.head = n.head := by
  have hh := List.mem_map_of_mem (f := Node.head) h
  rw [parse_nodes_heads] at hh
  exact (List.mem_cons.1 hh).imp id List.mem_map.1

lemma exists_placed_of_mem_attributes {n : Node} {a : Attribute} (hn : n ∈ (parse source).nodes)
    (ha : a ∈ n.attributes) : ∃ p ∈ placed source, p.head = n.head ∧
      ∃ written, p.item.piece = .tag written ∧ a ∈ WrittenAttribute.placeAll p.id (p.id + 1)
        (p.start + 1 + Text.size written.name) written.attributes := by
  rcases head_cases_of_mem_nodes hn with hroot | ⟨p, hp, hhead⟩
  · rw [Node.attributes, hroot] at ha
    cases ha
  · rw [Node.attributes, ← hhead] at ha
    exact ⟨p, hp, hhead, Piece.mem_attributes_kind ha⟩

lemma owner_of_mem_attributes (hs : Text.size source < Word.bound) {n : Node} {a : Attribute}
    (hn : n ∈ (parse source).nodes) (ha : a ∈ n.attributes) :
    a.owner = n.head.id ∧ n.head.id < a.id := by
  obtain ⟨p, hp, hhead, written, hpiece, ha⟩ := exists_placed_of_mem_attributes hn ha
  have hle := id_le_of_mem_placed hp
  rw [← hhead, Placed.head_id hp hs]
  constructor
  · rw [WrittenAttribute.owner_of_mem_placeAll ha, Word.wrap_of_lt (by omega)]
  · have hid := List.mem_map_of_mem (f := Attribute.id) ha
    rw [WrittenAttribute.map_id_placeAll] at hid
    obtain ⟨i, hi, hid⟩ := List.mem_map.1 hid
    rw [List.mem_range'_1] at hi
    rw [hpiece, Piece.attributeCount] at hle
    rw [← hid, Word.wrap_of_lt (by omega)]
    omega

lemma isOpeningTag_of_mem_attributes {n : Node} {a : Attribute} (h : a ∈ n.attributes) :
    n.kind.isOpeningTag := by
  rw [Node.attributes] at h
  rw [Node.kind]
  cases hk : n.head.kind with
  | startTag name attributes => rfl
  | selfClosingTag name attributes => rfl
  | _ => simp [hk, NodeKind.attributes] at h

lemma mem_entries_cases {t : Template} {e : Entry} (h : e ∈ t.entries) :
    (∃ n ∈ t.nodes, e = .node n) ∨ ∃ n ∈ t.nodes, ∃ a ∈ n.attributes, e = .attr n a := by
  rw [Template.entries_eq] at h
  obtain ⟨n, hn, he⟩ := List.mem_flatMap.1 h
  rw [← Template.nodes_eq] at hn
  rcases List.mem_cons.1 he with rfl | he
  · exact Or.inl ⟨n, hn, rfl⟩
  · obtain ⟨a, ha, rfl⟩ := List.mem_map.1 he
    exact Or.inr ⟨n, hn, a, ha, rfl⟩

/-- The tag, or the root, that lists an entry. -/
def Entry.IsListedBy (e : Entry) (p : Node) : Prop :=
  match e with
  | .node n => n ∈ p.children ∧ p.kind.isContainer
  | .attr owner a => owner = p ∧ a ∈ p.attributes ∧ p.kind.isOpeningTag

lemma exists_isListedBy (hs : Text.size source < Word.bound) {e : Entry}
    (he : e ∈ (parse source).entries) (hid : e.id ≠ 0) : ∃ p ∈ (parse source).nodes,
      e.parent? = some p.head.id ∧ p.head.id < e.id ∧ e.IsListedBy p := by
  rcases mem_entries_cases he with ⟨n, hn, rfl⟩ | ⟨n, hn, a, ha, rfl⟩
  · have hn' := hn
    rw [Template.nodes_eq] at hn'
    rcases Node.exists_parent_of_mem_preorder _ hn' with rfl | ⟨p, hp, hc⟩
    · exact absurd (congrArg Head.id (parse_root_head source)) hid
    · rw [← Template.nodes_eq] at hp
      obtain ⟨hparent, hlt⟩ := parent_of_mem_children hs hp hc
      exact ⟨p, hp, hparent, hlt, hc, isContainer_of_mem_children hp hc⟩
  · obtain ⟨howner, hlt⟩ := owner_of_mem_attributes hs hn ha
    exact ⟨n, hn, congrArg some howner, hlt, rfl, ha, isOpeningTag_of_mem_attributes ha⟩

/-- Ids number the entries from the root on, in the order in which a node comes before its attributes and
these before what is below it. Each id but that of the root is listed once, by the parent of its entry. -/
theorem entries_form_tree (source : Text) (hs : Text.size source < Word.bound) :
    (parse source).root.head.id = 0 ∧ (parse source).root.head.parent = none ∧
    (parse source).root.attributes = [] ∧
    (parse source).root.ids = List.range (parse source).entries.length ∧
    (parse source).entries.map Entry.id = List.range (parse source).entries.length ∧
    ((parse source).entries.flatMap Entry.listed).Perm
      (List.range' 1 ((parse source).entries.length - 1)) ∧
    (∀ e ∈ (parse source).entries, e.id ≠ 0 → ∃ p ∈ (parse source).nodes,
      e.parent? = some p.head.id ∧ p.head.id < e.id ∧ e.IsListedBy p) ∧
    (∀ n ∈ (parse source).nodes, n.kind.isContainer = false → n.children = []) := by
  have hroot := parse_root_head source
  refine ⟨by rw [hroot]; rfl, by rw [hroot]; rfl, by rw [Node.attributes, hroot]; rfl,
    ids_eq_range hs, (map_id_entries source).trans (ids_eq_range hs), listed_perm hs,
    fun e => exists_isListedBy hs, ?_⟩
  intro n hn hk
  apply List.eq_nil_iff_forall_not_mem.2
  intro c hc
  rw [isContainer_of_mem_children hn hc] at hk
  cases hk

theorem entries_form_tree_unclosed :
    Text.size ['<', 'a', ' ', 'b', '>', '<', 'b', 'r', ' ', 'c', '>', '<', '/', 'b', '>'] <
      Word.bound ∧
    (parse ['<', 'a', ' ', 'b', '>', '<', 'b', 'r', ' ', 'c', '>', '<', '/', 'b', '>']).entries.map
      Entry.parent? = [none, some 0, some 1, some 1, some 3, some 1] ∧
    (parse ['<', 'a', ' ', 'b', '>', '<', 'b', 'r', ' ', 'c', '>', '<', '/', 'b', '>']).root.ids =
      List.range (parse ['<', 'a', ' ', 'b', '>', '<', 'b', 'r', ' ', 'c', '>', '<', '/', 'b',
        '>']).entries.length :=
  ⟨by decide, by decide +kernel, (entries_form_tree _ (by decide)).2.2.2.1⟩

end TemplateMarkup

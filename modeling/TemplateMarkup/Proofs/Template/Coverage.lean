import TemplateMarkup.Proofs.Template.Placement

namespace TemplateMarkup

open Markup (Item Piece items)

namespace Head

/-- The bracket of a nameless tag and the one character after it, if any. -/
def taken (source : Text) (h : Head) : Text :=
  if h.kind.isNameless then '<' :: (Text.after (h.span.start + 1) source).head?.toList else []

def reach (source : Text) (h : Head) : Nat :=
  if h.kind.isNameless then h.span.start + Text.size (h.taken source) else h.span.stop

end Head

def Template.content (t : Template) : List Node :=
  t.nodes.filter fun n => n.kind != .root

namespace Placed

variable {p : Placed} {source rest : Text}

lemma IsIn.reads (h : p.IsIn source rest) :
    Piece.Reads (p.item.piece.chars ++ rest) (p.item.piece, rest) := by
  obtain ⟨before, cs, rfl, -, hr⟩ := h
  exact Item.reads_of_read? hr

lemma IsIn.tag_split {written : Markup.WrittenTag} (h : p.IsIn source rest)
    (hp : p.item.piece = .tag written) : ∃ before first cs, source = before ++ '<' :: first :: cs ∧
      Text.size before = p.start ∧ Markup.isNameStart first ∧
        Markup.WrittenTag.read first cs = (written, rest) := by
  obtain ⟨before, hb, hsource⟩ := h.split
  have hreads := h.reads
  rw [hp] at hreads hsource
  generalize (Piece.tag written).chars ++ rest = ds at hreads hsource
  cases hreads with
  | @tag first cs hfirst =>
    refine ⟨before ++ p.item.blank, first, cs, ?_, ?_, hfirst, rfl⟩
    · rw [hsource, List.append_assoc]
    · rw [Text.size_append, hb, start]

lemma kind_ne_root (p : Placed) : p.head.kind ≠ .root := by
  show p.item.piece.kind p.id p.start ≠ .root
  cases p.item.piece with
  | tag written => simp only [Piece.kind]; split <;> simp
  | _ => simp [Piece.kind]

lemma isNameless_iff (h : p ∈ placed source) :
    p.head.kind.isNameless ↔ ∃ c, p.item.piece = .nameless c := by
  obtain ⟨rest, hin⟩ := placed_isIn h
  have hr := hin.reads
  show (p.item.piece.kind p.id p.start).isNameless ↔ _
  generalize p.item.piece.chars ++ rest = cs at hr
  generalize p.item.piece = piece at hr ⊢
  cases hr with
  | tag rest hc =>
    simp only [Piece.kind]
    split <;> simp [NodeKind.isNameless, Markup.WrittenTag.read_name]
  | _ => simp [Piece.kind, NodeKind.isNameless]

lemma taken_of_nameless {c : Option Char} (h : p ∈ placed source)
    (hs : Text.size source < Word.bound) (hp : p.item.piece = .nameless c) :
    p.head.taken source = p.item.piece.chars := by
  obtain ⟨rest, hin⟩ := placed_isIn h
  obtain ⟨before, hb, hsource⟩ := hin.split
  have hafter : Text.after (p.start + 1) source = c.toList ++ rest := by
    have hsize : Text.size (before ++ (p.item.blank ++ ['<'])) = p.start + 1 := by
      simp only [Text.size_append, hb, start, Nat.add_assoc]
      rfl
    have hsplit : source = before ++ (p.item.blank ++ ['<']) ++ (c.toList ++ rest) := by
      rw [hsource, hp]
      simp [Piece.chars]
    rw [hsplit, Text.after_append hsize]
  rw [Head.taken, if_pos ((isNameless_iff h).2 ⟨c, hp⟩), head_span h hs, hafter, hp]
  have hr := hin.reads
  rw [hp] at hr
  cases c with
  | some c => rfl
  | none =>
    generalize (Piece.nameless none).chars ++ rest = cs at hr
    cases hr
    rfl

lemma reach_eq (h : p ∈ placed source) (hs : Text.size source < Word.bound) :
    p.head.reach source = p.stop := by
  rw [Head.reach, head_span h hs]
  by_cases hn : ∃ c, p.item.piece = .nameless c
  · obtain ⟨c, hp⟩ := hn
    rw [if_pos ((isNameless_iff h).2 ⟨c, hp⟩), taken_of_nameless h hs hp, p.start_add_size]
  · rw [if_neg fun hk => hn ((isNameless_iff h).1 hk), ← p.start_add_size]
    cases hp : p.item.piece with
    | nameless c => exact absurd ⟨c, hp⟩ hn
    | _ => rfl

lemma slice_span (h : p ∈ placed source) (hs : Text.size source < Word.bound)
    (hn : ¬ ∃ c, p.item.piece = .nameless c) :
    p.head.span.slice source = p.item.piece.chars := by
  obtain ⟨rest, hin⟩ := placed_isIn h
  have hr := reach_eq h hs
  rw [Head.reach, if_neg fun hk => hn ((isNameless_iff h).1 hk)] at hr
  rw [Span.slice, hr, ← hin.slice_piece, head_span h hs]

lemma pieces_eq (h : p ∈ placed source) (hs : Text.size source < Word.bound) :
    Text.slice p.head.outerStart p.head.span.start source ++ p.head.span.slice source ++
      p.head.taken source = p.item.chars := by
  obtain ⟨rest, hin⟩ := placed_isIn h
  have hblank : Text.slice p.head.outerStart p.head.span.start source = p.item.blank := by
    rw [head_outerStart h hs, head_span h hs, Text.slice, hin.slice?_blank]
    rfl
  rw [hblank, Item.chars, List.append_assoc]
  congr 1
  by_cases hn : ∃ c, p.item.piece = .nameless c
  · obtain ⟨c, hp⟩ := hn
    have hempty : p.head.span.slice source = [] := by
      rw [head_span h hs, hp]
      exact Text.slice_self p.start source
    rw [hempty, taken_of_nameless h hs hp, List.nil_append]
  · rw [slice_span h hs hn, Head.taken, if_neg fun hk => hn ((isNameless_iff h).1 hk),
      List.append_nil]

end Placed

namespace Builder

lemma map_item_placed (found : List Item) (b : Builder) :
    (b.placed found).map Placed.item = found := by
  induction found generalizing b with
  | nil => rfl
  | cons item found ih => rw [placed, List.map_cons, ih]

lemma placed_head? (cs : Text) (b : Builder) :
    (b.placed (items cs)).head?.elim (b.offset + Text.size cs) Placed.pos = b.offset := by
  cases hr : Item.read? cs with
  | none =>
    obtain rfl := Item.read?_eq_none_iff.1 hr
    simp
  | some read => rw [placed_of_read? b hr]; rfl

lemma placed_next (cs : Text) : ∀ (b : Builder) (i : Nat) (p : Placed),
    (b.placed (items cs))[i]? = some p →
      (b.placed (items cs))[i + 1]?.elim (b.offset + Text.size cs) Placed.pos = p.stop := by
  induction cs using Markup.items_induction with
  | nil => simp
  | cons cs item rest hr ih =>
    intro b i p hp
    have hend : b.offset + Text.size cs = (b.add item).offset + Text.size rest := by
      rw [(add_step b item).offset_eq, ← Item.chars_of_read? hr, Text.size_append, Nat.add_assoc]
    rw [placed_of_read? b hr] at hp ⊢
    rw [hend, List.getElem?_cons_succ]
    cases i with
    | zero =>
      obtain rfl := Option.some.inj hp
      have hhead := placed_head? rest (b.add item)
      rw [List.head?_eq_getElem?] at hhead
      rw [hhead, (add_step b item).offset_eq]
      rfl
    | succ i => exact ih (b.add item) i p hp

end Builder

lemma content_heads (source : Text) :
    (parse source).content.map Node.head = (placed source).map Placed.head := by
  have hfilter : (parse source).content.map Node.head =
      ((parse source).nodes.map Node.head).filter fun h => h.kind != .root := by
    rw [List.filter_map]
    rfl
  have hkeep : ((placed source).map Placed.head).filter (fun h => h.kind != .root) =
      (placed source).map Placed.head := by
    rw [List.filter_eq_self]
    intro h hh
    obtain ⟨p, -, rfl⟩ := List.mem_map.1 hh
    simpa using p.kind_ne_root
  rw [hfilter, parse_nodes_heads, List.filter_cons_of_neg (by simp [rootHead]), hkeep]

lemma exists_placed_of_mem_content {source : Text} {n : Node} (h : n ∈ (parse source).content) :
    ∃ p ∈ placed source, p.head = n.head := by
  have hh := List.mem_map_of_mem (f := Node.head) h
  rw [content_heads] at hh
  exact List.mem_map.1 hh

lemma content_getElem? (source : Text) (i : Nat) :
    (parse source).content[i]?.map Node.head = (placed source)[i]?.map Placed.head := by
  rw [← List.getElem?_map, ← List.getElem?_map, content_heads]

lemma pairwise_content {source : Text} {R : Head → Head → Prop}
    (h : (placed source).Pairwise fun p q => R p.head q.head) :
    (parse source).content.Pairwise fun m n => R m.head n.head := by
  have hheads : ((parse source).content.map Node.head).Pairwise R := by
    rw [content_heads, List.pairwise_map]
    exact h
  rwa [List.pairwise_map] at hheads

lemma content_ids_increase {source : Text} (hs : Text.size source < Word.bound) :
    ((parse source).content.map fun n => n.head.id).Pairwise (· < ·) := by
  rw [List.pairwise_map]
  apply pairwise_content (R := fun g h => g.id < h.id)
  refine (placed_pairwise source).imp_of_mem fun {p q} hp hq h => ?_
  rw [Placed.head_id hp hs, Placed.head_id hq hs]
  have hid := h.id_lt
  omega

lemma content_next {source : Text} (hs : Text.size source < Word.bound) {i : Nat} {n : Node}
    (h : (parse source).content[i]? = some n) :
    ((parse source).content[i + 1]?.elim (Text.size source) fun m => m.head.outerStart) =
      n.head.reach source := by
  have hp := content_getElem? source i
  rw [h, Option.map_some, eq_comm, Option.map_eq_some_iff] at hp
  obtain ⟨p, hp, hhead⟩ := hp
  have hnext := Builder.placed_next source Builder.start i p hp
  rw [← hhead, Placed.reach_eq (List.mem_of_getElem? hp) hs, ← hnext]
  have hq := content_getElem? source (i + 1)
  cases hc : (parse source).content[i + 1]? with
  | none =>
    rw [hc, Option.map_none, eq_comm, Option.map_eq_none_iff] at hq
    rw [show (Builder.start.placed (items source))[i + 1]? = none from hq]
    exact (Nat.zero_add _).symm
  | some m =>
    rw [hc, Option.map_some, eq_comm, Option.map_eq_some_iff] at hq
    obtain ⟨q, hq, hhead'⟩ := hq
    rw [show (Builder.start.placed (items source))[i + 1]? = some q from hq]
    have houter := Placed.head_outerStart (List.mem_of_getElem? hq) hs
    rw [hhead'] at houter
    exact houter

lemma content_pieces {source : Text} (hs : Text.size source < Word.bound) :
    ((parse source).content.flatMap fun n =>
      Text.slice n.head.outerStart n.head.span.start source ++ n.head.span.slice source ++
        n.head.taken source) = source := by
  let pieces : Head → Text := fun h =>
    Text.slice h.outerStart h.span.start source ++ h.span.slice source ++ h.taken source
  calc ((parse source).content.flatMap fun n => pieces n.head)
      = ((parse source).content.map Node.head).flatMap pieces := by rw [List.flatMap_map]
    _ = (placed source).flatMap fun p => pieces p.head := by rw [content_heads, List.flatMap_map]
    _ = (placed source).flatMap fun p => p.item.chars :=
        List.flatMap_congr fun p hp => Placed.pieces_eq hp hs
    _ = (items source).flatMap Item.chars := by
        rw [← Builder.map_item_placed (items source) Builder.start, List.flatMap_map]
        rfl
    _ = source := Markup.chars_items source

/-- The nodes other than the root, in the order of their ids, cover the source without a gap. -/
theorem content_covers_source (source : Text) (hs : Text.size source < Word.bound) :
    ((parse source).content.map fun n => n.head.id).Pairwise (· < ·) ∧
    (∀ n, (parse source).content.head? = some n → n.head.outerStart = 0) ∧
    (∀ n ∈ (parse source).content, ∃ blanks,
      Text.slice? n.head.outerStart n.head.span.start source = some blanks ∧
        ∀ c ∈ blanks, Text.isBlank c) ∧
    (∀ i n, (parse source).content[i]? = some n →
      ((parse source).content[i + 1]?.elim (Text.size source) fun m => m.head.outerStart) =
        n.head.reach source) ∧
    ((parse source).content.flatMap fun n =>
      Text.slice n.head.outerStart n.head.span.start source ++ n.head.span.slice source ++
        n.head.taken source) = source ∧
    ((parse source).content = [] ↔ source = []) := by
  refine ⟨content_ids_increase hs, ?_, ?_, fun i n => content_next hs, content_pieces hs, ?_⟩
  · intro n hn
    have hp := content_getElem? source 0
    rw [← List.head?_eq_getElem?, hn, Option.map_some, eq_comm, Option.map_eq_some_iff] at hp
    obtain ⟨p, hp, hhead⟩ := hp
    have hpos := Builder.placed_head? source Builder.start
    rw [List.head?_eq_getElem?, show (Builder.start.placed (items source))[0]? = some p from hp]
      at hpos
    rw [← hhead, Placed.head_outerStart (List.mem_of_getElem? hp) hs]
    exact hpos
  · intro n hn
    obtain ⟨p, hp, hhead⟩ := exists_placed_of_mem_content hn
    obtain ⟨rest, hin⟩ := placed_isIn hp
    refine ⟨p.item.blank, ?_, ?_⟩
    · rw [← hhead, Placed.head_outerStart hp hs, Placed.head_span hp hs, hin.slice?_blank]
    · obtain ⟨before, cs, -, -, hr⟩ := hin
      exact Item.blank_of_read? hr
  · constructor
    · intro h
      rw [← content_pieces hs, h]
      rfl
    · rintro rfl
      have hlen := congrArg List.length (content_heads [])
      rw [placed, Markup.items_nil] at hlen
      exact List.eq_nil_of_length_eq_zero (by simpa using hlen)

theorem content_covers_nameless :
    Text.size [' ', '<', 'é', '<'] < Word.bound ∧
    ((parse [' ', '<', 'é', '<']).content.map fun n => n.head.span) = [⟨1, 1⟩, ⟨4, 4⟩] ∧
    ((parse [' ', '<', 'é', '<']).content.flatMap fun n =>
      Text.slice n.head.outerStart n.head.span.start [' ', '<', 'é', '<'] ++
        n.head.span.slice [' ', '<', 'é', '<'] ++ n.head.taken [' ', '<', 'é', '<']) =
      [' ', '<', 'é', '<'] :=
  ⟨by decide, by decide +kernel, (content_covers_source _ (by decide)).2.2.2.2.1⟩

end TemplateMarkup

import TemplateMarkup.Proofs.Markup.Locality
import TemplateMarkup.Proofs.Template.Lookup
import TemplateMarkup.Proofs.Template.Shift

namespace TemplateMarkup

open Markup (Item Piece Fault FaultKind WrittenAttribute WrittenTag)

namespace Head

def owns (h : Head) (f : Fault) : Bool :=
  match f.kind with
  | .invalidSelfClosing _ | .incompleteClosingTag | .unclosedInterpolation => f.span == h.span
  | .incompleteAttributeValue => h.kind.attributes.any fun a => f.span == a.span
  | .unrecognizedAttributeValue => h.kind.attributes.any fun a => f.span == Span.empty a.span.stop
  | _ => false

def shift (h : Head) : Shift :=
  ⟨h.id - 1, h.span.start⟩

end Head

lemma Builder.start_add (item : Item) :
    (start.add item).tree = ⟨rootHead, [⟨item.head 1 0 0, []⟩]⟩ ∧
    (start.add item).allFaults = item.faults 0 ++
      if (item.head 1 0 0).kind.isContainer then
        [⟨.unmatchedOpeningTag, (item.head 1 0 0).span⟩]
      else [] := by
  have hne : (item.head 1 0 0).kind ≠ .root := (⟨1, 0, rootHead, item⟩ : Placed).kind_ne_root
  have hfaults : ((item.faults 0).reverse ++ []).reverse = item.faults 0 := by simp
  have hstep := add_step start item
  generalize start.add item = d at hstep
  cases hstep with
  | push hk =>
    rw [show start.nextHead item = item.head 1 0 0 from rfl] at hk
    rw [hk]
    exact ⟨rfl, congrArg (· ++ _) hfaults⟩
  | pop hk =>
    rw [show start.nextHead item = item.head 1 0 0 from rfl] at hk
    rw [hk]
    exact ⟨rfl, congrArg (· ++ _) hfaults⟩
  | stray hk hn hv => exact absurd hv (by decide)
  | leaf hs he hv =>
    have hleaf : (item.head 1 0 0).kind.isContainer = false := by
      cases hk : (item.head 1 0 0).kind with
      | root => exact absurd hk hne
      | startTag name attributes => exact absurd hk (hs name attributes)
      | _ => rfl
    rw [hleaf]
    exact ⟨rfl, congrArg (· ++ _) hfaults⟩

lemma parse_of_items {cs : Text} {piece : Piece} (h : Markup.items cs = [⟨[], piece⟩]) :
    (parse cs).root = ⟨rootHead, [⟨Item.head 1 0 0 ⟨[], piece⟩, []⟩]⟩ ∧
    (parse cs).faults = piece.faults 0 ++
      if (piece.kind 1 0).isContainer then
        [⟨.unmatchedOpeningTag, (Item.head 1 0 0 ⟨[], piece⟩).span⟩]
      else [] := by
  rw [parse, h]
  exact Builder.start_add ⟨[], piece⟩

namespace Placed

variable {p q : Placed} {source : Text} {f : Fault}

lemma shift_head (h : p ∈ placed source) (hs : Text.size source < Word.bound) :
    p.head.shift = ⟨p.id - 1, p.start⟩ := by
  rw [Head.shift, head_id h hs, head_span h hs]

lemma span_shift (h : p ∈ placed source) (hs : Text.size source < Word.bound)
    (hplain : ¬ ∃ c, p.item.piece = .nameless c) :
    p.head.shift.span (Item.head 1 0 0 ⟨[], p.item.piece⟩).span = p.head.span ∧
      (Item.head 1 0 0 ⟨[], p.item.piece⟩).span = ⟨0, Text.size p.item.piece.chars⟩ := by
  have hsize := p.start_add_size
  have hstop := stop_le_of_mem_placed h
  have hextent := Piece.extent_eq_size hplain
  have hspan : (Item.head 1 0 0 ⟨[], p.item.piece⟩).span = ⟨0, Text.size p.item.piece.chars⟩ := by
    show Span.ofOffsets 0 (0 + p.item.piece.extent) = _
    rw [Span.ofOffsets, Word.wrap_of_lt (by omega), Word.wrap_of_lt (by omega), hextent,
      Nat.zero_add]
  refine ⟨?_, hspan⟩
  rw [hspan, shift_head h hs, head_span h hs, Shift.span, hextent, Nat.zero_add, Nat.add_comm]

lemma kind_shift (h : p ∈ placed source) (hs : Text.size source < Word.bound) :
    p.head.kind = p.head.shift.kind (p.item.piece.kind 1 0) := by
  have hid := (placed_top h).1
  have hle := id_le_of_mem_placed h
  have hstop := stop_le_of_mem_placed h
  have hsize := p.start_add_size
  have hadd := @Piece.kind_add ⟨p.id - 1, p.start⟩ 1 0 p.item.piece Nat.one_pos
    (by show 1 + _ + (p.id - 1) < _; omega) (by show 0 + _ + p.start < _; omega)
  rw [shift_head h hs, ← hadd, Nat.zero_add]
  show p.item.piece.kind p.id p.start = p.item.piece.kind (1 + (p.id - 1)) p.start
  rw [Nat.add_sub_cancel' (by omega)]

lemma faults_shift (h : p ∈ placed source) (hs : Text.size source < Word.bound) :
    p.item.faults p.pos = (p.item.piece.faults 0).map p.head.shift.fault := by
  have hstop := stop_le_of_mem_placed h
  have hsize := p.start_add_size
  have hadd := @Piece.faults_add ⟨p.id - 1, p.start⟩ 0 p.item.piece
    (by show 0 + _ + p.start < _; omega)
  rw [shift_head h hs, ← hadd, Nat.zero_add]
  rfl

lemma fault_cases (h : p ∈ placed source) (hs : Text.size source < Word.bound)
    (hf : f ∈ p.item.faults p.pos) : p.head.owns f ∨
      f.kind = .invalidTagName ∧ p.head.kind.isNameless ∨
      f = ⟨.invalidTagEnd, p.head.span⟩ ∧ p.head.kind.isOpeningTag := by
  rw [faults_item h hs] at hf
  rcases List.mem_append.1 hf with hf | hf
  · left
    obtain ⟨a, ha, hf⟩ := List.mem_flatMap.1 hf
    rw [Attribute.faults, List.mem_append, List.mem_ite_nil_right, List.mem_ite_nil_right,
      List.mem_singleton, List.mem_singleton] at hf
    rcases hf with ⟨-, rfl⟩ | ⟨-, rfl⟩ <;> exact List.any_eq_true.2 ⟨a, ha, beq_self_eq_true _⟩
  rw [Head.faults] at hf
  split at hf
  · rename_i name attributes hk
    rw [hk]
    right
    split at hf
    · rename_i hname
      rw [List.mem_singleton.1 hf]
      exact Or.inl ⟨rfl, hname⟩
    · obtain ⟨-, hf⟩ := List.mem_ite_nil_left.1 hf
      exact Or.inr ⟨List.mem_singleton.1 hf, rfl⟩
  · rename_i name attributes hk
    rcases List.mem_append.1 hf with hf | hf
    · obtain ⟨-, hf⟩ := List.mem_ite_nil_left.1 hf
      rw [hk]
      exact Or.inr (Or.inr ⟨List.mem_singleton.1 hf, rfl⟩)
    · obtain ⟨-, hf⟩ := List.mem_ite_nil_left.1 hf
      rw [List.mem_singleton.1 hf]
      exact Or.inl (beq_self_eq_true _)
  · rw [List.mem_singleton.1 hf]
    exact Or.inl (beq_self_eq_true _)
  · obtain ⟨-, hf⟩ := List.mem_ite_nil_left.1 hf
    rw [List.mem_singleton.1 hf]
    exact Or.inl (beq_self_eq_true _)
  · cases hf

lemma not_owns_of_precedes (hp : p ∈ placed source) (hq : q ∈ placed source)
    (hs : Text.size source < Word.bound) (h : p.Precedes q) : ¬ (p.head.owns f ∧ q.head.owns f) := by
  have hstart : p.head.span.start < q.head.span.start := by
    rw [head_span hp hs, head_span hq hs]
    exact h.start_lt
  have hstop : p.head.span.stop ≤ q.head.span.start := by
    have hextent := p.start_add_extent_le
    have hle := h.stop_le
    rw [head_span hp hs, head_span hq hs]
    simp only [start] at hextent ⊢
    omega
  have hattributes : ∀ a ∈ p.head.kind.attributes, ∀ b ∈ q.head.kind.attributes,
      a.span.stop < b.span.stop := by
    intro a ha b hb
    have hin := (p.spaced hp hs).inside a ha
    have hin' := (q.spaced hq hs).inside b hb
    omega
  have hspans : p.head.span ≠ q.head.span := fun he => Nat.ne_of_lt hstart (congrArg Span.start he)
  rintro ⟨hf, hf'⟩
  simp only [Head.owns] at hf hf'
  cases hk : f.kind with
  | invalidSelfClosing name =>
    simp only [hk, beq_iff_eq] at hf hf'
    exact hspans (hf.symm.trans hf')
  | incompleteClosingTag =>
    simp only [hk, beq_iff_eq] at hf hf'
    exact hspans (hf.symm.trans hf')
  | unclosedInterpolation =>
    simp only [hk, beq_iff_eq] at hf hf'
    exact hspans (hf.symm.trans hf')
  | incompleteAttributeValue =>
    simp only [hk, List.any_eq_true, beq_iff_eq] at hf hf'
    obtain ⟨a, ha, hspan⟩ := hf
    obtain ⟨b, hb, hspan'⟩ := hf'
    exact Nat.ne_of_lt (hattributes a ha b hb) (congrArg Span.stop (hspan.symm.trans hspan'))
  | unrecognizedAttributeValue =>
    simp only [hk, List.any_eq_true, beq_iff_eq] at hf hf'
    obtain ⟨a, ha, hspan⟩ := hf
    obtain ⟨b, hb, hspan'⟩ := hf'
    have hempty := congrArg Span.stop (hspan.symm.trans hspan')
    exact Nat.ne_of_lt (hattributes a ha b hb) hempty
  | _ =>
    rw [hk] at hf
    cases hf

lemma filter_owns_of_ne (hp : p ∈ placed source) (hq : q ∈ placed source)
    (hs : Text.size source < Word.bound) (h : p.Precedes q ∨ q.Precedes p) :
    (q.item.faults q.pos).filter p.head.owns = [] := by
  rw [List.filter_eq_nil_iff]
  intro f hf howns
  rcases fault_cases hq hs hf with hq' | ⟨hk, -⟩ | ⟨rfl, -⟩
  · rcases h with h | h
    · exact not_owns_of_precedes hp hq hs h ⟨howns, hq'⟩
    · exact not_owns_of_precedes hq hp hs h ⟨hq', howns⟩
  · rw [Head.owns, hk] at howns
    cases howns
  · cases howns

lemma filter_parse_owns (hp : p ∈ placed source) (hs : Text.size source < Word.bound) :
    (parse source).faults.filter p.head.owns = (p.item.faults p.pos).filter p.head.owns := by
  have hstray (q : Placed) : (strayFault? q.link).toList.filter p.head.owns = [] := by
    rw [List.filter_eq_nil_iff]
    intro f hf
    rw [(kind_of_strayFault? (Option.mem_toList.1 hf)).1]
    exact Bool.false_ne_true
  have hpairs := placed_pairwise source
  obtain ⟨front, back, hsplit⟩ := List.append_of_mem hp
  rw [hsplit, List.pairwise_append] at hpairs
  obtain ⟨-, hback, hfront⟩ := hpairs
  rw [filter_parse_faults source _ fun _ => rfl]
  simp only [hstray, List.append_nil]
  rw [hsplit, List.flatMap_append, List.flatMap_cons]
  have hbefore : front.flatMap (fun q => (q.item.faults q.pos).filter p.head.owns) = [] := by
    rw [List.flatMap_eq_nil_iff]
    intro q hq
    exact filter_owns_of_ne hp (by rw [hsplit]; exact List.mem_append_left _ hq) hs
      (Or.inr (hfront q hq p (List.mem_cons_self ..)))
  have hbehind : back.flatMap (fun q => (q.item.faults q.pos).filter p.head.owns) = [] := by
    rw [List.flatMap_eq_nil_iff]
    intro q hq
    exact filter_owns_of_ne hp
      (by rw [hsplit]; exact List.mem_append_right _ (List.mem_cons_of_mem p hq)) hs
      (Or.inl ((List.pairwise_cons.1 hback).1 q hq))
  rw [hbefore, hbehind, List.nil_append, List.append_nil]

lemma ending_ne_missing (hp : p ∈ placed source)
    (hend : p.head.kind.isOpeningTag → ⟨.invalidTagEnd, p.head.span⟩ ∉ (parse source).faults) :
    ∀ tag, p.item.piece = .tag tag → tag.ending ≠ .missing := by
  intro tag htag hmissing
  have hkind : p.head.kind.isOpeningTag := by
    show (p.item.piece.kind p.id p.start).isOpeningTag
    rw [htag, Piece.kind]
    split <;> rfl
  apply hend hkind
  rw [parse_faults]
  refine List.mem_append_left _ (List.mem_flatMap.2 ⟨p, hp, List.mem_append_left _ ?_⟩)
  have hbracket : Char.utf8Size '<' = 1 := rfl
  show _ ∈ p.item.piece.faults p.start
  rw [p.span_eq_ofOffsets (by simp [htag]), htag, Piece.chars, Text.size_cons, hbracket,
    ← Nat.add_assoc, Piece.faults, WrittenTag.faults, hmissing]
  exact List.mem_append_right _ (List.mem_singleton_self _)

lemma piece_of_span_lt (hp : p ∈ placed source) (hs : Text.size source < Word.bound)
    (h : p.head.span.start < p.head.span.stop) :
    (∀ c, p.item.piece ≠ .nameless c) ∧ p.item.piece.chars ≠ [] := by
  have hextent : 0 < p.item.piece.extent := by
    rw [head_span hp hs] at h
    exact Nat.pos_of_lt_add_right h
  constructor
  · intro c hc
    rw [hc] at hextent
    cases hextent
  · intro hnil
    have hle := p.item.piece.extent_le
    rw [hnil] at hle
    exact Nat.not_le_of_lt hextent hle

lemma filter_owns_self (hp : p ∈ placed source) (hs : Text.size source < Word.bound)
    (hname : ∀ c, p.item.piece ≠ .nameless c)
    (hend : p.head.kind.isOpeningTag → ⟨.invalidTagEnd, p.head.span⟩ ∉ (parse source).faults) :
    (p.item.faults p.pos).filter p.head.owns = p.item.faults p.pos := by
  rw [List.filter_eq_self]
  intro f hf
  rcases fault_cases hp hs hf with howns | ⟨-, hk⟩ | ⟨rfl, hk⟩
  · exact howns
  · obtain ⟨c, hc⟩ := (isNameless_iff hp).1 hk
    exact absurd hc (hname c)
  · refine absurd ?_ (hend hk)
    rw [parse_faults]
    exact List.mem_append_left _ (List.mem_flatMap.2 ⟨p, hp, List.mem_append_left _ hf⟩)

lemma items_slice (hp : p ∈ placed source) (hs : Text.size source < Word.bound)
    (h : p.head.span.start < p.head.span.stop)
    (hend : p.head.kind.isOpeningTag → ⟨.invalidTagEnd, p.head.span⟩ ∉ (parse source).faults) :
    Markup.items (p.head.span.slice source) = [⟨[], p.item.piece⟩] := by
  obtain ⟨hname, hne⟩ := piece_of_span_lt hp hs h
  obtain ⟨rest, before, cs, -, -, hr⟩ := placed_isIn hp
  rw [slice_span hp hs (not_exists.2 hname)]
  exact Markup.items_piece hr hne hname (ending_ne_missing hp hend)

end Placed

/-- The text of a node is parsed as that node alone at offset 0, and the faults found are those that its
own markup has in the source. A tag that is not closed by a bracket could have gone on, and a start tag is
not matched when it is alone. -/
theorem parse_excerpt (source : Text) (hs : Text.size source < Word.bound) {n : Node}
    (hn : n ∈ (parse source).content) (hspan : n.head.span.start < n.head.span.stop)
    (hend : n.kind.isOpeningTag → ⟨.invalidTagEnd, n.head.span⟩ ∉ (parse source).faults) :
    ∃ m : Node, (parse ((parse source).text (.node n))).root = ⟨rootHead, [m]⟩ ∧ m.children = [] ∧
      m.head.id = 1 ∧ m.head.parent = some 0 ∧ m.head.outerStart = 0 ∧
      m.head.span = ⟨0, Text.size ((parse source).text (.node n))⟩ ∧
      (parse ((parse source).text (.node n))).text (.node m) = (parse source).text (.node n) ∧
      n.kind = n.head.shift.kind m.kind ∧
      (parse ((parse source).text (.node n))).faults.map n.head.shift.fault =
        (parse source).faults.filter n.head.owns ++
          if n.kind.isContainer then [⟨.unmatchedOpeningTag, n.head.span⟩] else [] := by
  obtain ⟨p, hp, hhead⟩ := exists_placed_of_mem_content hn
  rw [← hhead] at hspan
  rw [Node.kind, ← hhead] at hend
  obtain ⟨hname, -⟩ := Placed.piece_of_span_lt hp hs hspan
  have hplain := not_exists.2 hname
  have hchars := Placed.slice_span hp hs hplain
  have htext : (parse source).text (.node n) = p.item.piece.chars := by
    rw [← hchars, hhead]
    rfl
  have hitems := Placed.items_slice hp hs hspan hend
  rw [hchars] at hitems
  obtain ⟨hroot, hfaults⟩ := parse_of_items hitems
  obtain ⟨hmoved, hmspan⟩ := Placed.span_shift hp hs hplain
  have hkind : n.kind = n.head.shift.kind (p.item.piece.kind 1 0) := by
    rw [Node.kind, ← hhead]
    exact Placed.kind_shift hp hs
  rw [htext, hroot]
  refine ⟨_, rfl, rfl, rfl, rfl, rfl, hmspan, ?_, hkind, ?_⟩
  · have hwhole := @Text.slice_append [] p.item.piece.chars [] 0 _ rfl (Nat.zero_add _)
    rw [List.append_nil, List.nil_append] at hwhole
    rw [Template.text, Entry.span, hmspan]
    exact hwhole
  · rw [hfaults, List.map_append, hkind, Shift.isContainer_kind, ← hhead,
      Placed.filter_parse_owns hp hs, Placed.filter_owns_self hp hs hname hend,
      Placed.faults_shift hp hs, ← hmoved]
    congr 1
    by_cases hk : (p.item.piece.kind 1 0).isContainer
    · rw [if_pos hk, if_pos hk]
      rfl
    · rw [if_neg hk, if_neg hk]
      rfl

theorem parse_excerpt_self_closing :
    Text.size [' ', 'x', '<', 'b', ' ', 'c', '=', '/', '>'] < Word.bound ∧
    ∃ n ∈ (parse [' ', 'x', '<', 'b', ' ', 'c', '=', '/', '>']).content,
      n.head.span = ⟨2, 9⟩ ∧ n.kind.isOpeningTag ∧
      ⟨.invalidTagEnd, n.head.span⟩ ∉ (parse [' ', 'x', '<', 'b', ' ', 'c', '=', '/', '>']).faults ∧
      (parse [' ', 'x', '<', 'b', ' ', 'c', '=', '/', '>']).faults.filter n.head.owns =
        [⟨.unrecognizedAttributeValue, ⟨7, 7⟩⟩, ⟨.invalidSelfClosing ['b'], ⟨2, 9⟩⟩] ∧
      ∃ m : Node, (parse ((parse [' ', 'x', '<', 'b', ' ', 'c', '=', '/', '>']).text (.node n))).root =
        ⟨rootHead, [m]⟩ ∧ n.kind = n.head.shift.kind m.kind := by
  refine ⟨by decide, ?_⟩
  have htag : ∃ n ∈ (parse [' ', 'x', '<', 'b', ' ', 'c', '=', '/', '>']).content,
      n.head.span = ⟨2, 9⟩ ∧ n.kind.isOpeningTag ∧
      ⟨.invalidTagEnd, n.head.span⟩ ∉ (parse [' ', 'x', '<', 'b', ' ', 'c', '=', '/', '>']).faults ∧
      (parse [' ', 'x', '<', 'b', ' ', 'c', '=', '/', '>']).faults.filter n.head.owns =
        [⟨.unrecognizedAttributeValue, ⟨7, 7⟩⟩, ⟨.invalidSelfClosing ['b'], ⟨2, 9⟩⟩] := by
    decide +kernel
  obtain ⟨n, hn, hspan, hk, hend, howned⟩ := htag
  obtain ⟨m, hroot, -, -, -, -, -, -, hkind, -⟩ :=
    parse_excerpt _ (by decide) hn (by rw [hspan]; decide) fun _ => hend
  exact ⟨n, hn, hspan, hk, hend, howned, m, hroot, hkind⟩

end TemplateMarkup

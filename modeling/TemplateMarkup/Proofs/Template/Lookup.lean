import TemplateMarkup.Proofs.Template.Offsets
import TemplateMarkup.Proofs.Template.Search

namespace TemplateMarkup

open Markup (Piece WrittenAttribute WrittenTag)

namespace Markup.WrittenAttribute

lemma placeAll_spans {owner id pos : Nat} {as : List WrittenAttribute}
    (hnames : ∀ w ∈ as, w.name ≠ []) (hb : pos + Text.size (as.flatMap chars) < Word.bound) :
    ((placeAll owner id pos as).Pairwise fun a b => a.span.stop ≤ b.span.start) ∧
      ∀ a ∈ placeAll owner id pos as, pos ≤ a.span.start ∧ a.span.start < a.span.stop ∧
        a.span.stop ≤ pos + Text.size (as.flatMap chars) := by
  induction as generalizing id pos with
  | nil => simp [placeAll]
  | cons w as ih =>
    rw [List.flatMap_cons, Text.size_append] at hb ⊢
    obtain ⟨hpairs, hbounds⟩ := @ih (id + 1) (pos + Text.size w.chars)
      (fun v hv => hnames v (List.mem_cons_of_mem w hv)) (by omega)
    have hspan := @place_span_of_lt id owner pos w (by omega)
    have hstart : (w.place id owner pos).span.start = pos + Text.size w.blank := by rw [hspan]
    have hstop : (w.place id owner pos).span.stop = pos + Text.size w.covered := by rw [hspan]
    have hcovered := w.size_covered_le
    have hname : Text.size w.blank < Text.size w.covered := by
      have hne := mt Text.size_eq_zero_iff.1 (hnames w (List.mem_cons_self ..))
      rw [covered_eq, core_eq, Text.size_append, Text.size_append]
      omega
    rw [placeAll]
    constructor
    · refine List.Pairwise.cons (fun b hb' => ?_) hpairs
      have := (hbounds b hb').1
      omega
    · intro a ha
      rcases List.mem_cons.1 ha with rfl | ha
      · omega
      · have := hbounds a ha
        omega

end Markup.WrittenAttribute

lemma Markup.Piece.Reads.attribute_names {cs rest : Text} {written : WrittenTag}
    (h : Piece.Reads cs (.tag written, rest)) : ∀ w ∈ written.attributes, w.name ≠ [] := by
  cases h with
  | tag rest hc =>
    intro w hw
    obtain ⟨ds, after, hr⟩ := WrittenTag.exists_read?_of_mem hw
    exact WrittenAttribute.name_ne_nil_of_read? hr

structure Head.Spaced (h : Head) : Prop where
  apart : h.kind.attributes.Pairwise fun a b => a.span.stop ≤ b.span.start
  inside : ∀ a ∈ h.kind.attributes,
    h.span.start < a.span.start ∧ a.span.start < a.span.stop ∧ a.span.stop ≤ h.span.stop

lemma Placed.spaced {p : Placed} {source : Text} (h : p ∈ placed source)
    (hs : Text.size source < Word.bound) : p.head.Spaced := by
  obtain ⟨rest, hin⟩ := placed_isIn h
  have hreads := hin.reads
  have hstop := stop_le_of_mem_placed h
  have hsize := p.start_add_size
  have hspan := head_span h hs
  have hkind : p.head.kind = p.item.piece.kind p.id p.start := rfl
  cases hp : p.item.piece with
  | tag written =>
    rw [hp] at hreads hsize hspan
    have hnames := hreads.attribute_names
    have hchars : Text.size written.name +
        Text.size (written.attributes.flatMap WrittenAttribute.chars) ≤ Text.size written.chars := by
      simp only [WrittenTag.chars, Text.size_append]
      omega
    have hextent : Text.size ('<' :: written.chars) = 1 + Text.size written.chars :=
      Text.size_cons ..
    obtain ⟨hapart, hinside⟩ := @WrittenAttribute.placeAll_spans p.id (p.id + 1)
      (p.start + 1 + Text.size written.name) written.attributes hnames (by
        simp only [Piece.chars, hextent] at hsize
        omega)
    rw [← Piece.attributes_kind_tag, ← hp, ← hkind] at hapart hinside
    refine ⟨hapart, fun a ha => ?_⟩
    obtain ⟨hstart, hlt, hle⟩ := hinside a ha
    rw [hspan, show (Piece.tag written).extent = 1 + Text.size written.chars from hextent]
    exact ⟨by show p.start < _; omega, hlt, by show _ ≤ p.start + _; omega⟩
  | _ =>
    rw [hp] at hkind
    constructor <;> simp [hkind, Piece.kind, NodeKind.attributes]

namespace Node

variable {n : Node} {a b : Attribute} {pos : Nat}

lemma attributeAt?_eq_some (h : n.head.Spaced) (ha : a ∈ n.attributes) (htouch : a.span.touches pos)
    (hlater : ∀ b ∈ n.attributes, a.span.stop ≤ b.span.start → pos < b.span.start) :
    (Entry.node n).attributeAt? pos = some a := by
  obtain ⟨front, back, hsplit⟩ := List.append_of_mem ha
  have hback : ∀ b ∈ back, a.span.stop ≤ b.span.start := by
    have hapart := h.apart
    rw [show n.head.kind.attributes = front ++ a :: back from hsplit, List.pairwise_append] at hapart
    exact (List.pairwise_cons.1 hapart.2.1).1
  rw [Entry.attributeAt?, show (Entry.node n).attributes = front ++ a :: back from hsplit,
    List.find?_eq_some_iff_append]
  refine ⟨htouch, back.reverse, front.reverse, by simp, fun b hb => ?_⟩
  have hb := List.mem_reverse.1 hb
  have hlt := hlater b (by rw [hsplit]; simp [hb]) (hback b hb)
  simp only [Span.touches, Bool.not_eq_true', Bool.and_eq_false_imp, decide_eq_true_eq]
  omega

end Node

variable {source : Text} {n t : Node} {a b : Attribute} {pos : Nat}

lemma content_apart (hs : Text.size source < Word.bound) :
    (parse source).content.Pairwise fun m n => m.head.span.stop ≤ n.head.outerStart := by
  apply pairwise_content (R := fun g h => g.span.stop ≤ h.outerStart)
  refine (placed_pairwise source).imp_of_mem fun {p q} hp hq h => ?_
  rw [Placed.head_span hp hs, Placed.head_outerStart hq hs]
  exact p.start_add_extent_le.trans h.stop_le

lemma spaced_of_mem_content (hs : Text.size source < Word.bound)
    (hn : n ∈ (parse source).content) : n.head.Spaced := by
  obtain ⟨p, hp, hhead⟩ := exists_placed_of_mem_content hn
  rw [← hhead]
  exact p.spaced hp hs

lemma innermost_eq_of_mem_content (hs : Text.size source < Word.bound)
    (hn : n ∈ (parse source).content) (hstart : n.head.outerStart ≤ pos)
    (hstop : pos < n.head.span.stop) : (parse source).root.innermost pos = n := by
  have hscan : Node.scan? pos (parse source).content = some n := by
    -- All nodes before `n` have ended where its blanks begin, and the scan passes over them.
    obtain ⟨front, back, hsplit⟩ := List.append_of_mem hn
    have hapart := content_apart hs
    rw [hsplit, List.pairwise_append] at hapart
    have hfront : ∀ m ∈ front, m.head.span.stop ≤ pos := fun m hm =>
      (hapart.2.2 m hm n (List.mem_cons_self ..)).trans hstart
    rw [hsplit, Node.scan?_append_of_le hfront (by simp), Node.scan?_cons_of_lt hstop]
  rw [innermost_root, ← scan?_content hs, hscan]
  rfl

lemma entryAt?_of_mem_content (hs : Text.size source < Word.bound)
    (hn : n ∈ (parse source).content) (hstart : n.head.outerStart ≤ pos)
    (hstop : pos < n.head.span.stop) : (parse source).entryAt? pos =
      some (((Entry.node n).attributeAt? pos).elim (.node n) (.attr n)) := by
  have hfilled : (parse source).isEmpty = false := by
    rw [content_eq_preorders] at hn
    cases hc : (parse source).root.children with
    | nil =>
      rw [hc] at hn
      cases hn
    | cons c cs => rw [Template.isEmpty, hc, List.isEmpty_cons]
  rw [Template.entryAt?, hfilled, innermost_eq_of_mem_content hs hn hstart hstop]
  cases h : (Entry.node n).attributeAt? pos with
  | none => simp [h]
  | some a => simp [h]

lemma entryAt?_eq_attr (hs : Text.size source < Word.bound) (ht : t ∈ (parse source).content)
    (ha : a ∈ t.attributes) (htouch : a.span.touches pos) (hstop : pos < t.head.span.stop)
    (hlater : ∀ b ∈ t.attributes, a.span.stop ≤ b.span.start → pos < b.span.start) :
    (parse source).entryAt? pos = some (.attr t a) := by
  have hspaced := spaced_of_mem_content hs ht
  have hstart : t.head.outerStart ≤ pos := by
    have hgap := (head_isIn hs (List.mem_of_mem_filter ht)).gap_within.start_le_stop
    have hinside := (hspaced.inside a ha).1
    simp only [Span.touches, Bool.and_eq_true, decide_eq_true_eq] at htouch hgap
    omega
  rw [entryAt?_of_mem_content hs ht hstart hstop,
    Node.attributeAt?_eq_some hspaced ha htouch hlater]
  rfl

lemma entryAt?_in_attribute (hs : Text.size source < Word.bound)
    (ht : t ∈ (parse source).content) (ha : a ∈ t.attributes) (hstart : a.span.start ≤ pos)
    (hstop : pos < a.span.stop) : (parse source).entryAt? pos = some (.attr t a) := by
  have hinside := ((spaced_of_mem_content hs ht).inside a ha).2.2
  refine entryAt?_eq_attr hs ht ha ?_ (by omega) fun b hb hle => by omega
  simp only [Span.touches, Bool.and_eq_true, decide_eq_true_eq]
  omega

/-- An offset inside a node finds the node or an attribute of it that the offset touches: any attribute
inside its span, and at its end unless the next one begins there. Blanks before a node find the node. -/
theorem entryAt_own_offsets (source : Text) (hs : Text.size source < Word.bound) :
    (∀ t ∈ (parse source).content, ∀ a ∈ t.attributes,
      (∀ pos, a.span.start ≤ pos → pos < a.span.stop →
        (parse source).entryAt? pos = some (.attr t a)) ∧
      (a.span.stop < t.head.span.stop →
        (∀ b ∈ t.attributes, b.span.start = a.span.stop →
          (parse source).entryAt? a.span.stop = some (.attr t b)) ∧
        ((∀ b ∈ t.attributes, b.span.start ≠ a.span.stop) →
          (parse source).entryAt? a.span.stop = some (.attr t a)))) ∧
    (∀ n ∈ (parse source).content, ∀ pos,
      (n.head.span.start ≤ pos → pos < n.head.span.stop →
        (parse source).entryAt? pos = some (.node n) ∨
          ∃ a ∈ n.attributes, a.span.touches pos ∧
            (parse source).entryAt? pos = some (.attr n a)) ∧
      (n.head.outerStart ≤ pos → pos < n.head.span.start →
        (parse source).entryAt? pos = some (.node n))) := by
  constructor
  · intro t ht a ha
    refine ⟨fun pos => entryAt?_in_attribute hs ht ha, fun hstop => ?_⟩
    refine ⟨fun b hb hnext => ?_, fun hlast => ?_⟩
    · have hinside := ((spaced_of_mem_content hs ht).inside b hb).2.1
      exact entryAt?_in_attribute hs ht hb (by omega) (by omega)
    · have hinside := ((spaced_of_mem_content hs ht).inside a ha).2.1
      refine entryAt?_eq_attr hs ht ha ?_ hstop fun b hb hle => ?_
      · simp only [Span.touches, Bool.and_eq_true, decide_eq_true_eq]
        omega
      · have := hlast b hb
        omega
  · intro n hn pos
    have hin := head_isIn hs (List.mem_of_mem_filter hn)
    have hgap : n.head.outerStart ≤ n.head.span.start := hin.gap_within.start_le_stop
    have hspan := hin.span_within.start_le_stop
    constructor
    · intro hstart hstop
      rw [entryAt?_of_mem_content hs hn (hgap.trans hstart) hstop]
      cases h : (Entry.node n).attributeAt? pos with
      | none => exact Or.inl rfl
      | some a =>
        have hmem := List.mem_reverse.1 (List.mem_of_find?_eq_some h)
        have htouch := List.find?_some h
        exact Or.inr ⟨a, hmem, htouch, rfl⟩
    · intro houter hstart
      have hnone : (Entry.node n).attributeAt? pos = none := by
        rw [Entry.attributeAt?, List.find?_eq_none]
        intro a ha
        have hinside := ((spaced_of_mem_content hs hn).inside a (List.mem_reverse.1 ha)).1
        simp only [Span.touches, Bool.and_eq_true, decide_eq_true_eq]
        omega
      rw [entryAt?_of_mem_content hs hn houter (by omega), hnone]
      rfl

theorem entryAt_own_offsets_adjacent :
    Text.size ['<', 'a', ' ', 'b', '=', '"', '"', 'd', '>', ' ', 'e'] < Word.bound ∧
    (∃ t ∈ (parse ['<', 'a', ' ', 'b', '=', '"', '"', 'd', '>', ' ', 'e']).content,
      ∃ b ∈ t.attributes, b.name = ['d'] ∧
        (parse ['<', 'a', ' ', 'b', '=', '"', '"', 'd', '>', ' ', 'e']).entryAt? 7 =
          some (.attr t b)) ∧
    ([6, 7, 8, 9].map fun pos =>
      ((parse ['<', 'a', ' ', 'b', '=', '"', '"', 'd', '>', ' ', 'e']).entryAt? pos).map Entry.id) =
        [some 2, some 3, some 3, some 4] := by
  refine ⟨by decide, ?_, by decide +kernel⟩
  have hadjacent : ∃ t ∈ (parse ['<', 'a', ' ', 'b', '=', '"', '"', 'd', '>', ' ', 'e']).content,
      ∃ a ∈ t.attributes, ∃ b ∈ t.attributes, a.span.stop = 7 ∧ 7 < t.head.span.stop ∧
        b.span.start = 7 ∧ b.name = ['d'] := by decide +kernel
  obtain ⟨t, ht, a, ha, b, hb, hstop, hlt, hstart, hname⟩ := hadjacent
  have hfound := (((entryAt_own_offsets _ (by decide)).1 t ht a ha).2 (by omega)).1 b hb (by omega)
  exact ⟨t, ht, b, hb, hname, hstop ▸ hfound⟩

end TemplateMarkup

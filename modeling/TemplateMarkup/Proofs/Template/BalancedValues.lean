import TemplateMarkup.Proofs.Document.Reading
import TemplateMarkup.Proofs.Template.Offsets
import TemplateMarkup.Proofs.Template.Walk

namespace TemplateMarkup

open Markup (Item)
open Interpolation (openMark closeMark)

def Text.IsPlain (cs : Text) : Prop :=
  '{' ∉ cs ∧ '}' ∉ cs ∧ '"' ∉ cs

namespace Interpolation

variable {start : Nat} {value before : Text} {i : Interpolation}

lemma inValue_of_none (h : last? start value = none) : inValue start value = [] := by
  rw [inValue]
  split
  · rfl
  · rename_i hsome
    rw [h] at hsome
    cases hsome

lemma inValue_of_some (h : last? start value = some (i, before)) :
    inValue start value = i :: inValue start before := by
  rw [inValue]
  split
  · rename_i hnone
    rw [h] at hnone
    cases hnone
  · rename_i found front hsome
    rw [h] at hsome
    obtain ⟨rfl, rfl⟩ := Prod.mk.inj (Option.some.inj hsome)
    rfl

structure Shows (source : Text) (i : Interpolation) (expression : Text) : Prop where
  text_eq : i.text = openMark ++ expression ++ closeMark
  slice_eq : Text.slice? i.span.start i.span.stop source = some expression

end Interpolation

/-- A value with some interpolations: the text before them, and each expression with the text behind it. -/
structure BalancedValue where
  lead : Text
  parts : List (Text × Text)
  lead_plain : Text.IsPlain lead
  parts_plain : ∀ p ∈ parts, Text.IsPlain p.1 ∧ Text.IsPlain p.2

namespace BalancedValue

def written (p : Text × Text) : Text :=
  openMark ++ p.1 ++ closeMark ++ p.2

def interpolationsFrom (pos : Nat) : List (Text × Text) → List Interpolation
  | [] => []
  | p :: rest =>
    ⟨openMark ++ p.1 ++ closeMark, ⟨pos + 2, pos + 2 + Text.size p.1⟩⟩ ::
      interpolationsFrom (pos + Text.size (written p)) rest

def chars (v : BalancedValue) : Text :=
  v.lead ++ v.parts.flatMap written

def interpolations (v : BalancedValue) (start : Nat) : List Interpolation :=
  interpolationsFrom (start + Text.size v.lead) v.parts

def template (v : BalancedValue) : Text :=
  ['<', 'a', ' ', 'x', '=', '"'] ++ (v.chars ++ ['"', '>', '<', '/', 'a', '>'])

variable {start pos : Nat} {source lead : Text} {p : Text × Text} {ps : List (Text × Text)}

lemma interpolationsFrom_concat (pos : Nat) (ps : List (Text × Text)) (p : Text × Text) :
    interpolationsFrom pos (ps ++ [p]) = interpolationsFrom pos ps ++
      interpolationsFrom (pos + Text.size (ps.flatMap written)) [p] := by
  induction ps generalizing pos with
  | nil => rfl
  | cons q ps ih =>
    rw [List.cons_append, interpolationsFrom, ih (pos + Text.size (written q)), List.flatMap_cons,
      Text.size_append, ← Nat.add_assoc]
    rfl

lemma last?_written (before : Text) (hfirst : Text.IsPlain p.1) (hsecond : Text.IsPlain p.2) :
    Interpolation.last? start (before ++ written p) =
      some (⟨openMark ++ p.1 ++ closeMark, ⟨start + Text.size before + 2,
        start + Text.size before + 2 + Text.size p.1⟩⟩, before) := by
  have hopen : '{' ∉ p.1 ++ closeMark ++ p.2 := by
    simp [closeMark, hfirst.1, hsecond.1]
  have hvalue : before ++ written p = before ++ openMark ++ (p.1 ++ closeMark ++ p.2) := by
    simp [written]
  rw [Interpolation.last?, hvalue, show openMark = ['{', '{'] from rfl, Text.cutLast_append hopen]
  simp only [show closeMark = ['}', '}'] from rfl, Text.cutLast_append hsecond.2.1]
  rfl

lemma inValue_eq (hlead : Text.IsPlain lead)
    (hparts : ∀ p ∈ ps, Text.IsPlain p.1 ∧ Text.IsPlain p.2) :
    Interpolation.inValue start (lead ++ ps.flatMap written) =
      (interpolationsFrom (start + Text.size lead) ps).reverse := by
  induction ps using List.reverseRecOn with
  | nil =>
    rw [List.flatMap_nil, List.append_nil]
    refine Interpolation.inValue_of_none ?_
    rw [Interpolation.last?, show openMark = ['{', '{'] from rfl,
      Text.cutLast_of_not_mem hlead.1]
  | append_singleton ps p ih =>
    obtain ⟨hfirst, hsecond⟩ := hparts p (by simp)
    have hlast := @last?_written start p (lead ++ ps.flatMap written) hfirst hsecond
    have hvalue : lead ++ (ps ++ [p]).flatMap written = lead ++ ps.flatMap written ++ written p := by
      simp
    rw [hvalue, Interpolation.inValue_of_some hlast, ih fun q hq => hparts q (by simp [hq]),
      interpolationsFrom_concat, List.reverse_append, Text.size_append, ← Nat.add_assoc]
    rfl

lemma shows_interpolationsFrom (before after : Text) (ps : List (Text × Text))
    (hsource : source = before ++ (ps.flatMap written ++ after)) :
    List.Forall₂ (Interpolation.Shows source)
      (interpolationsFrom (Text.size before) ps) (ps.map Prod.fst) := by
  induction ps generalizing before with
  | nil => exact .nil
  | cons p ps ih =>
    have hsplit : source = before ++ openMark ++ (p.1 ++ (closeMark ++ p.2 ++
        (ps.flatMap written ++ after))) := by
      rw [hsource, List.flatMap_cons, written]
      simp
    refine .cons ⟨rfl, ?_⟩ ?_
    · rw [hsplit]
      exact Text.slice?_append (Text.size_append ..) rfl
    · rw [← Text.size_append]
      refine ih (before ++ written p) ?_
      rw [hsource, List.flatMap_cons]
      simp

lemma interpolations_attribute (v : BalancedValue) {a : Attribute} (hvalue : a.value = some v.chars)
    (hstart : a.valueStart = some start) : a.interpolations = (v.interpolations start).reverse := by
  rw [Attribute.interpolations, hvalue, hstart]
  exact inValue_eq v.lead_plain v.parts_plain

lemma shows_interpolations (v : BalancedValue) {a : Attribute} (h : a.IsIn source)
    (hvalue : a.value = some v.chars) :
    List.Forall₂ (Interpolation.Shows source) a.interpolations (v.parts.map Prod.fst).reverse := by
  obtain ⟨pos, hpos, hslice⟩ := h.value_eq _ hvalue
  obtain ⟨before, after, hsource, hbefore, -⟩ := Text.slice?_eq_some_iff.1 hslice
  have hsplit : source = before ++ v.lead ++ (v.parts.flatMap written ++ after) := by
    rw [hsource, chars]
    simp
  have hshows := shows_interpolationsFrom _ _ _ hsplit
  rw [Text.size_append, hbefore] at hshows
  rw [v.interpolations_attribute hvalue hpos]
  exact List.forall₂_reverse_iff.2 hshows

variable (v : BalancedValue)

lemma quote_not_mem_chars : '"' ∉ v.chars := by
  rw [chars, List.mem_append, List.mem_flatMap]
  rintro (h | ⟨p, hp, h⟩)
  · exact v.lead_plain.2.2 h
  · obtain ⟨hfirst, hsecond⟩ := v.parts_plain p hp
    simp [written, openMark, closeMark, hfirst.2.2, hsecond.2.2] at h

def opening : Item :=
  ⟨[], .tag (Part.opening ['a'] [(['x'], v.chars)])⟩

def closing : Item :=
  ⟨[], .endTag ⟨['a'], true⟩⟩

lemma items_template : Markup.items v.template = [v.opening, closing] := by
  let part : Part := .element ['a'] [(['x'], v.chars)] []
  have hvalue : Part.IsAttribute (['x'], v.chars) :=
    ⟨by simp, by simp [Markup.isAttributeChar, Markup.isNameChar], v.quote_not_mem_chars⟩
  have hwell : Part.AllWellFormed [part] := by
    refine ⟨⟨⟨by decide, by simp⟩, by decide, ?_, trivial⟩, by simp, trivial⟩
    rwa [List.forall_mem_singleton]
  have hprint : v.template = Part.printAll [part] ++ [] := by
    simp [part, template, Part.printAll, Part.print, Part.printOpening, Part.printAttribute,
      Part.printClosing]
  rw [hprint, Part.items_printAll [] [part] hwell (Or.inl rfl), Markup.items_nil]
  rfl

lemma root_template : ∃ tag last a, (parse v.template).root = ⟨rootHead, [tag]⟩ ∧
    tag.children = [last] ∧ tag.kind = .startTag ['a'] [a] ∧ last.children = [] ∧
      last.kind = .endTag (some ['a']) ∧ a.value = some v.chars ∧ a.valueStart = some 6 := by
  have hroot : (parse v.template).root =
      ([v.opening, closing].foldl Builder.add Builder.start).tree := by
    rw [← items_template]
    rfl
  let tag : Head := v.opening.head 1 0 0
  let last : Node := ⟨closing.head 3 tag.id (0 + Text.size v.opening.chars), []⟩
  refine ⟨⟨tag, [last]⟩, last, Markup.WrittenAttribute.place 2 1 2 (Part.written (['x'], v.chars)), ?_,
    rfl, rfl, rfl, rfl, rfl, rfl⟩
  rw [hroot]
  rfl

lemma exists_attribute : ∃ n ∈ (parse v.template).nodes, ∃ a ∈ n.attributes,
    a.value = some v.chars ∧ a.valueStart = some 6 ∧
      (parse v.template).interpolations = a.interpolations := by
  obtain ⟨tag, last, a, hroot, hchildren, htag, hlast, hend, hvalue, hstart⟩ := v.root_template
  have htagAttributes : tag.attributes = [a] := congrArg NodeKind.attributes htag
  have hlastAttributes : last.attributes = [] := congrArg NodeKind.attributes hend
  have hwalk : (parse v.template).walk =
      [.node ⟨rootHead, [tag]⟩, .node tag, .node last, .attr tag a] := by
    have hlastWalk : last.walk = [.node last] := by
      rw [Node.walk_eq, hlast, hlastAttributes]
      rfl
    have htagWalk : tag.walk = [.node tag, .node last, .attr tag a] := by
      rw [Node.walk_eq, hchildren, Node.walks, Node.walks, hlastWalk, htagAttributes]
      rfl
    rw [Template.walk_eq, hroot, Node.walk_eq, Node.walks, Node.walks, htagWalk]
    rfl
  refine ⟨tag, ?_, a, by simp [htagAttributes], hvalue, hstart, ?_⟩
  · rw [Template.nodes_eq, hroot, Node.preorder_eq, Node.preorders, Node.preorder_eq]
    simp
  · have hnone {n : Node} (h : n.kind ≠ .interpolation) :
        (parse v.template).interpolationsIn (.node n) = [] := if_neg h
    rw [Template.interpolations, hwalk, List.flatMap_cons, List.flatMap_cons, List.flatMap_cons,
      List.flatMap_singleton, hnone (by simp [Node.kind, rootHead]), hnone (by simp [htag]),
      hnone (by simp [hend])]
    rfl

end BalancedValue

/-- The interpolations of a balanced value come out last to first, each at the place of its expression. -/
theorem balanced_value_interpolations (v : BalancedValue) (hs : Text.size v.template < Word.bound) :
    (parse v.template).interpolations = (v.interpolations 6).reverse ∧
      List.Forall₂ (Interpolation.Shows v.template) (parse v.template).interpolations
        (v.parts.map Prod.fst).reverse := by
  obtain ⟨n, hn, a, ha, hvalue, hstart, hall⟩ := v.exists_attribute
  rw [hall]
  exact ⟨v.interpolations_attribute hvalue hstart,
    v.shows_interpolations (attribute_isIn hs hn ha) hvalue⟩

def BalancedValue.adjacent : BalancedValue where
  lead := ['é']
  parts := [(['a'], []), ([], ['ü', ' ']), (['é', ' '], [])]
  lead_plain := by simp [Text.IsPlain]
  parts_plain := by simp [Text.IsPlain]

theorem balanced_value_interpolations_adjacent :
    Text.size BalancedValue.adjacent.template < Word.bound ∧
    (parse BalancedValue.adjacent.template).interpolations =
      [⟨['{', '{', 'é', ' ', '}', '}'], ⟨22, 25⟩⟩, ⟨['{', '{', '}', '}'], ⟨15, 15⟩⟩,
        ⟨['{', '{', 'a', '}', '}'], ⟨10, 11⟩⟩] ∧
    List.Forall₂ (Interpolation.Shows BalancedValue.adjacent.template)
      (parse BalancedValue.adjacent.template).interpolations [['é', ' '], [], ['a']] := by
  have h := balanced_value_interpolations BalancedValue.adjacent (by decide)
  exact ⟨by decide, h.1, h.2⟩

end TemplateMarkup

import TemplateMarkup.Proofs.Template.AttributeText
import TemplateMarkup.Proofs.Template.LexicalFaults
import TemplateMarkup.Proofs.Template.Numbering
import TemplateMarkup.Proofs.Template.TagMatching
import TemplateMarkup.Proofs.Template.ValueSearch
import TemplateMarkup.Proofs.Text.Boundary

namespace TemplateMarkup

open Markup (Item Piece Fault WrittenAttribute WrittenValue WrittenTag)

structure Attribute.IsIn (source : Text) (a : Attribute) : Prop where
  gap_within : (⟨a.outerStart, a.span.start⟩ : Span).Within source
  span_within : a.span.Within source
  name_eq : Text.slice? a.span.start (a.span.start + Text.size a.name) source = some a.name
  value_boundary : ∀ pos, a.valueStart = some pos → Text.IsBoundary source pos
  value_eq : ∀ value, a.value = some value → ∃ pos, a.valueStart = some pos ∧
    Text.slice? pos (pos + Text.size value) source = some value

def Head.IsNamed (source : Text) (h : Head) : Prop :=
  match h.kind with
  | .startTag name _ | .selfClosingTag name _ =>
    Text.slice? (h.span.start + 1) (h.span.start + 1 + Text.size name) source = some name
  | .endTag (some name) => Text.slice? (h.span.start + 2) (h.span.stop - 1) source = some name
  | _ => True

structure Head.IsIn (source : Text) (h : Head) : Prop where
  gap_within : (⟨h.outerStart, h.span.start⟩ : Span).Within source
  span_within : h.span.Within source
  named : h.IsNamed source

variable {source : Text}

namespace Placed

variable {p : Placed} {rest : Text}

lemma IsIn.named (h : p.IsIn source rest) (hspan : p.head.span.start = p.start)
    (hstop : (∀ c, p.item.piece ≠ .nameless c) → p.head.span.stop = p.stop) :
    p.head.IsNamed source := by
  obtain ⟨before, hb, hsource⟩ := h.split
  have hstart : Text.size (before ++ p.item.blank) = p.start := by rw [Text.size_append, hb, start]
  have hsize := p.start_add_size
  have hkind : p.head.kind = p.item.piece.kind p.id p.start := rfl
  -- An opening mark is a bracket, and the name of the tag stands right behind it.
  have hname {name more : Text} (hchars : p.item.piece.chars = '<' :: (name ++ more)) :
      Text.slice? (p.head.span.start + 1) (p.head.span.start + 1 + Text.size name) source =
        some name := by
    have hsplit : source = before ++ p.item.blank ++ ['<'] ++ (name ++ (more ++ rest)) := by
      rw [hsource, hchars]
      simp
    rw [hsplit, hspan]
    refine Text.slice?_append ?_ rfl
    rw [Text.size_append, hstart]
    rfl
  rw [Head.IsNamed, hkind]
  cases hp : p.item.piece with
  | nameless c => exact @hname [] c.toList (by rw [hp]; rfl)
  | tag written =>
    have hchars : p.item.piece.chars = '<' :: (written.name ++ (written.attributes.flatMap
        WrittenAttribute.chars ++ (written.gap ++ written.ending.chars))) := by
      simp [hp, Piece.chars, WrittenTag.chars]
    by_cases hself : written.isSelfClosing
    · simp only [Piece.kind, if_pos hself]
      exact hname hchars
    · simp only [Piece.kind, if_neg hself]
      exact hname hchars
  | endTag run =>
    simp only [Piece.kind]
    cases hc : run.closed with
    | false => trivial
    | true =>
      have hchars : p.item.piece.chars = ['<', '/'] ++ (run.body ++ ['>']) := by
        simp [hp, Piece.chars, Text.Enclosed.chars, hc]
      have hsplit : source = before ++ p.item.blank ++ ['<', '/'] ++ (run.body ++ ('>' :: rest)) := by
        rw [hsource, hchars]
        simp
      have hbody : p.stop = p.start + 2 + Text.size run.body + 1 := by
        rw [← hsize, hchars, Text.size_append, Text.size_append]
        simp only [Text.size_cons, Text.size_nil, show Char.utf8Size '<' = 1 from rfl,
          show Char.utf8Size '/' = 1 from rfl, show Char.utf8Size '>' = 1 from rfl]
        omega
      rw [hspan, hstop (by simp [hp]), hbody, hsplit]
      refine Text.slice?_append ?_ rfl
      rw [Text.size_append, hstart]
      rfl
  | _ => trivial

lemma IsIn.piece_within (h : p.IsIn source rest) : (⟨p.start, p.stop⟩ : Span).Within source := by
  obtain ⟨before, hb, hsource⟩ := h.split
  have hstart : Text.size (before ++ p.item.blank) = p.start := by rw [Text.size_append, hb, start]
  rw [hsource, ← List.append_assoc, ← p.start_add_size, ← hstart]
  exact Span.within_append ..

lemma head_isIn (h : p ∈ placed source) (hs : Text.size source < Word.bound) :
    p.head.IsIn source := by
  obtain ⟨rest, hin⟩ := placed_isIn h
  have hspan := head_span h hs
  have hgap : (⟨p.pos, p.start⟩ : Span).Within source := Span.within_of_slice? hin.slice?_blank
  have hstop : (∀ c, p.item.piece ≠ .nameless c) → p.head.span.stop = p.stop := by
    intro hn
    rw [hspan, ← p.start_add_size, Piece.extent_eq_size (not_exists.2 hn)]
  refine ⟨?_, ?_, hin.named (by rw [hspan]) hstop⟩
  · rw [head_outerStart h hs, hspan]
    exact hgap
  · by_cases hn : ∃ c, p.item.piece = .nameless c
    · obtain ⟨c, hc⟩ := hn
      rw [hspan, hc]
      exact hgap.empty_stop
    · have hpiece : p.head.span = ⟨p.start, p.stop⟩ := by
        rw [← hstop (fun c hc => hn ⟨c, hc⟩), hspan]
      rw [hpiece]
      exact hin.piece_within

lemma attribute_isIn (h : p ∈ placed source) (hs : Text.size source < Word.bound) {a : Attribute}
    (ha : a ∈ p.head.kind.attributes) : a.IsIn source := by
  obtain ⟨before, tail, after, hspells, hexact⟩ := exists_spells h hs ha
  obtain ⟨front, blank, hbefore, houter, -⟩ := hspells.outer
  refine ⟨?_, ?_, ?_, ?_, ?_⟩
  · rw [houter, hspells.span_eq, hspells.source_eq, hbefore, Text.size_append, List.append_assoc]
    exact Span.within_append ..
  · rw [hspells.span_eq, hspells.source_eq]
    exact Span.within_append ..
  · rw [hspells.span_eq, hspells.source_eq, List.append_assoc]
    exact Text.slice?_append rfl rfl
  · intro pos hpos
    cases hvalue : a.value with
    | some value =>
      obtain ⟨front, back, hsource, hstart, -⟩ := hexact.value value hvalue
      obtain rfl : Text.size front = pos := Option.some.inj (hstart.symm.trans hpos)
      rw [hsource]
      exact Text.isBoundary_append ..
    | none =>
      obtain ⟨-, front, back, hsource, hstart, -⟩ := hexact.cut_off hvalue (by simp [hpos])
      obtain rfl : Text.size front = pos := Option.some.inj (hstart.symm.trans hpos)
      rw [hsource]
      exact Text.isBoundary_append ..
  · intro value hvalue
    obtain ⟨front, back, hsource, hstart, -⟩ := hexact.value value hvalue
    refine ⟨_, hstart, ?_⟩
    rw [hsource]
    exact Text.slice?_append rfl rfl

end Placed

lemma head_isIn (hs : Text.size source < Word.bound) {n : Node} (h : n ∈ (parse source).nodes) :
    n.head.IsIn source := by
  rcases head_cases_of_mem_nodes h with hroot | ⟨p, hp, hhead⟩
  · have hzero : (⟨0, 0⟩ : Span).Within source := Span.within_append [] [] source
    rw [hroot]
    exact ⟨hzero, hzero, trivial⟩
  · rw [← hhead]
    exact p.head_isIn hp hs

lemma attribute_isIn (hs : Text.size source < Word.bound) {n : Node} {a : Attribute}
    (h : n ∈ (parse source).nodes) (ha : a ∈ n.attributes) : a.IsIn source := by
  rcases head_cases_of_mem_nodes h with hroot | ⟨p, hp, hhead⟩
  · rw [Node.attributes, hroot] at ha
    cases ha
  · rw [Node.attributes, ← hhead] at ha
    exact p.attribute_isIn hp hs ha

lemma Attribute.IsIn.fault_within {a : Attribute} (h : a.IsIn source) {f : Fault}
    (hf : f ∈ a.faults) : f.span.Within source := by
  rw [Attribute.faults, List.mem_append, List.mem_ite_nil_right, List.mem_ite_nil_right,
    List.mem_singleton, List.mem_singleton] at hf
  rcases hf with ⟨-, rfl⟩ | ⟨-, rfl⟩
  · exact h.span_within
  · exact h.span_within.empty_stop

lemma Placed.head_fault_within {p : Placed} (h : p ∈ placed source)
    (hs : Text.size source < Word.bound) {f : Fault} (hf : f ∈ p.head.faults source) :
    f.span.Within source := by
  have hspan := (head_isIn h hs).span_within
  rw [Head.faults] at hf
  split at hf
  · rename_i name attributes hk
    split at hf
    · rename_i hn
      obtain ⟨c, hc⟩ := (isNameless_iff h).1 (by rw [hk]; exact hn)
      obtain ⟨rest, hin⟩ := placed_isIn h
      rw [List.mem_singleton.1 hf, taken_of_nameless h hs hc, head_span h hs, p.start_add_size]
      exact hin.piece_within
    · obtain ⟨-, hf⟩ := List.mem_ite_nil_left.1 hf
      rwa [List.mem_singleton.1 hf]
  · rcases List.mem_append.1 hf with hf | hf
    all_goals
      obtain ⟨-, hf⟩ := List.mem_ite_nil_left.1 hf
      rwa [List.mem_singleton.1 hf]
  · rwa [List.mem_singleton.1 hf]
  · obtain ⟨-, hf⟩ := List.mem_ite_nil_left.1 hf
    rwa [List.mem_singleton.1 hf]
  · cases hf

lemma fault_within (hs : Text.size source < Word.bound) {f : Fault}
    (hf : f ∈ (parse source).faults) : f.span.Within source := by
  rcases mem_parse_faults hf with ⟨p, hp, hf⟩ | ⟨link, hlink, hl⟩ | ⟨frame, hframe, rfl⟩
  · rw [Placed.faults_item hp hs] at hf
    rcases List.mem_append.1 hf with hf | hf
    · obtain ⟨a, ha, hf⟩ := List.mem_flatMap.1 hf
      exact (p.attribute_isIn hp hs ha).fault_within hf
    · exact p.head_fault_within hp hs hf
  · rw [parse_links] at hlink
    obtain ⟨p, hp, rfl⟩ := List.mem_map.1 hlink
    rw [(kind_of_strayFault? hl).1]
    exact (p.head_isIn hp hs).span_within
  · obtain ⟨tags, -, htags, hheads⟩ := parse_unclosed source
    have hmem : frame.head ∈ tags.map Node.head := by
      rw [hheads, List.mem_reverse]
      exact List.mem_map_of_mem hframe
    obtain ⟨n, hn, hhead⟩ := List.mem_map.1 hmem
    rw [← htags] at hn
    rw [← hhead]
    exact (head_isIn hs (List.mem_of_mem_filter hn)).span_within

namespace Interpolation

variable {start : Nat} {value : Text} {i : Interpolation}

lemma span_in_value (h : i ∈ inValue start value) : ∃ front mid back, value = front ++ (mid ++ back) ∧
    i.span = ⟨start + Text.size front, start + Text.size front + Text.size mid⟩ := by
  rcases isPaired_or_isCrossed_of_mem h with ⟨before, inner, after, rfl, -, hspan⟩ |
    ⟨early, after, rfl, hspan⟩
  · refine ⟨before ++ openMark, inner, closeMark ++ after, by simp only [List.append_assoc], ?_⟩
    rw [hspan, Text.size_append (before ++ openMark) inner, Nat.add_assoc]
  · exact ⟨early, [], closeMark ++ i.text ++ openMark ++ after, by simp, hspan⟩

end Interpolation

lemma Attribute.IsIn.interpolation_within {a : Attribute} (h : a.IsIn source) {i : Interpolation}
    (hi : i ∈ a.interpolations) : i.span.Within source := by
  rw [Attribute.interpolations] at hi
  split at hi
  · rename_i value start hvalue hstart
    obtain ⟨pos, hpos, hslice⟩ := h.value_eq value hvalue
    obtain rfl : start = pos := Option.some.inj (hstart.symm.trans hpos)
    obtain ⟨before, after, rfl, hbefore, -⟩ := Text.slice?_eq_some_iff.1 hslice
    obtain ⟨front, mid, back, rfl, hspan⟩ := Interpolation.span_in_value hi
    have hsplit : before ++ (front ++ (mid ++ back) ++ after) =
        before ++ front ++ (mid ++ (back ++ after)) := by simp
    rw [hspan, hsplit, ← hbefore, ← Text.size_append]
    exact Span.within_append ..
  · cases hi

lemma interpolation_within (hs : Text.size source < Word.bound) {i : Interpolation}
    (hi : i ∈ (parse source).interpolations) : i.span.Within source := by
  obtain ⟨e, he, hi⟩ := List.mem_flatMap.1 hi
  rw [(parse source).walk_perm_entries.mem_iff] at he
  rcases mem_entries_cases he with ⟨n, hn, rfl⟩ | ⟨n, hn, a, ha, rfl⟩
  · rw [Template.interpolationsIn] at hi
    split at hi
    · rw [List.mem_singleton.1 hi]
      exact (head_isIn hs hn).span_within
    · cases hi
  · exact (attribute_isIn hs hn ha).interpolation_within hi

def Template.spans (t : Template) : List Span :=
  t.entries.map Entry.span ++ t.faults.map Fault.span ++ t.interpolations.map Interpolation.span

/-- Every span of a template lies within its source and cuts out a text of its length; the blanks before an
entry, the names of tags, and the names and values of attributes lie where they were read. -/
theorem spans_within_source (source : Text) (hs : Text.size source < Word.bound) :
    (∀ s ∈ (parse source).spans, s.Within source ∧
      Text.slice? s.start s.stop source = some (s.slice source) ∧
      s.length? = some (Text.size (s.slice source)) ∧ ∃ r, s.range? = some r ∧ r.span = s) ∧
    (∀ e ∈ (parse source).entries, (⟨e.outerStart, e.span.start⟩ : Span).Within source ∧
      e.span.length? = some (Text.size ((parse source).text e))) ∧
    (∀ n ∈ (parse source).nodes, n.head.IsNamed source ∧ ∀ a ∈ n.attributes,
      Text.slice? a.span.start (a.span.start + Text.size a.name) source = some a.name ∧
      (∀ pos, a.valueStart = some pos → pos ≤ Text.size source ∧ Text.IsBoundary source pos) ∧
      ∀ value, a.value = some value → ∃ pos, a.valueStart = some pos ∧
        Text.slice? pos (pos + Text.size value) source = some value) := by
  refine ⟨?_, ?_, ?_⟩
  · intro s hmem
    have h : s.Within source := by
      rcases List.mem_append.1 hmem with hmem | hmem
      · rcases List.mem_append.1 hmem with hmem | hmem
        · obtain ⟨e, he, rfl⟩ := List.mem_map.1 hmem
          rcases mem_entries_cases he with ⟨n, hn, rfl⟩ | ⟨n, hn, a, ha, rfl⟩
          · exact (head_isIn hs hn).span_within
          · exact (attribute_isIn hs hn ha).span_within
        · obtain ⟨f, hf, rfl⟩ := List.mem_map.1 hmem
          exact fault_within hs hf
      · obtain ⟨i, hi, rfl⟩ := List.mem_map.1 hmem
        exact interpolation_within hs hi
    exact ⟨h, h.slice?_eq, h.length?_eq, h.exists_range⟩
  · intro e he
    rcases mem_entries_cases he with ⟨n, hn, rfl⟩ | ⟨n, hn, a, ha, rfl⟩
    · have h := head_isIn hs hn
      exact ⟨h.gap_within, h.span_within.length?_eq⟩
    · have h := attribute_isIn hs hn ha
      exact ⟨h.gap_within, h.span_within.length?_eq⟩
  · intro n hn
    refine ⟨(head_isIn hs hn).named, fun a ha => ?_⟩
    have h := attribute_isIn hs hn ha
    refine ⟨h.name_eq, fun pos hpos => ?_, h.value_eq⟩
    exact ⟨(h.value_boundary pos hpos).le_size, h.value_boundary pos hpos⟩

theorem spans_within_stray_braces :
    Text.size ['<', 'é', '<', 'a', ' ', 'b', '=', '"', '}', '}', 'é', '{', '{', '"'] < Word.bound ∧
    (parse ['<', 'é', '<', 'a', ' ', 'b', '=', '"', '}', '}', 'é', '{', '{', '"']).spans =
      [⟨0, 0⟩, ⟨0, 0⟩, ⟨3, 16⟩, ⟨6, 16⟩, ⟨0, 3⟩, ⟨3, 16⟩, ⟨3, 16⟩, ⟨0, 0⟩, ⟨9, 9⟩] ∧
    (⟨9, 9⟩ : Span).Within ['<', 'é', '<', 'a', ' ', 'b', '=', '"', '}', '}', 'é', '{', '{', '"'] :=
  have hspans : (parse ['<', 'é', '<', 'a', ' ', 'b', '=', '"', '}', '}', 'é', '{', '{', '"']).spans =
      [⟨0, 0⟩, ⟨0, 0⟩, ⟨3, 16⟩, ⟨6, 16⟩, ⟨0, 3⟩, ⟨3, 16⟩, ⟨3, 16⟩, ⟨0, 0⟩, ⟨9, 9⟩] := by
    decide +kernel
  ⟨by decide, hspans, ((spans_within_source _ (by decide)).1 ⟨9, 9⟩ (by rw [hspans]; decide)).1⟩

end TemplateMarkup

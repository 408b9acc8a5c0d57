import TemplateMarkup.Proofs.Template.AttributeText
import TemplateMarkup.Proofs.Template.Lookup

namespace TemplateMarkup

open Markup (IsName Piece WrittenAttribute WrittenTag isAttributeChar isVoid)
open Text (isBlank)

/-- Attributes that stand one after the other from an offset on, each behind some blanks, and their text
with the blanks. -/
inductive Attribute.Row (source : Text) : Nat → List Attribute → Text → Prop
  | nil (pos : Nat) : Row source pos [] []
  | cons {pos : Nat} {blank text row : Text} {a : Attribute} {as : List Attribute} :
      (∀ c ∈ blank, isBlank c) → a.span.start = pos + Text.size blank →
      Text.slice? a.span.start a.span.stop source = some text → Row source a.span.stop as row →
      Row source pos (a :: as) (blank ++ (text ++ row))

structure Head.Spells (source : Text) (h : Head) (name before row gap ending rest : Text) : Prop where
  source_eq : source = before ++ ('<' :: (name ++ (row ++ (gap ++ ending))) ++ rest)
  span_eq : h.span = ⟨Text.size before,
    Text.size before + Text.size ('<' :: (name ++ (row ++ (gap ++ ending))))⟩
  slice_eq : h.span.slice source = '<' :: (name ++ (row ++ (gap ++ ending)))
  is_name : IsName name (row ++ (gap ++ (ending ++ rest)))
  is_row : Attribute.Row source (h.span.start + 1 + Text.size name) h.kind.attributes row
  gap_blank : ∀ c ∈ gap, isBlank c
  gap_stop : ∀ c ∈ (ending ++ rest).head?, isBlank c = false ∧ isAttributeChar c = false
  is_ending : ending = ['/', '>'] ∨ ending = ['>'] ∨ ending = []
  no_ending : ending = [] ↔ ¬ ['/', '>'] <+: ending ++ rest ∧ ¬ ['>'] <+: ending ++ rest

namespace Markup

lemma WrittenAttribute.placeAll_row {as : List WrittenAttribute} {owner id : Nat}
    {source before lead rest : Text}
    (hblank : ∀ w ∈ as, (∀ c ∈ w.blank, isBlank c) ∧ ∀ c ∈ w.trail, isBlank c)
    (hlead : ∀ c ∈ lead, isBlank c) (hs : Text.size source < Word.bound)
    (hsource : source = before ++ (lead ++ (as.flatMap chars ++ rest))) : ∃ row gap,
      lead ++ as.flatMap chars = row ++ gap ∧ (∀ c ∈ gap, isBlank c) ∧
        Attribute.Row source (Text.size before)
          (placeAll owner id (Text.size before + Text.size lead) as) row := by
  induction as generalizing id before lead with
  | nil => exact ⟨[], lead, by simp, hlead, .nil _⟩
  | cons w as ih =>
    obtain ⟨hw, htrail⟩ := hblank w (List.mem_cons_self ..)
    have hsplit : source = before ++ (lead ++ w.blank) ++
        (w.core ++ (w.trail ++ (as.flatMap chars ++ rest))) := by
      rw [hsource, List.flatMap_cons, chars_eq]
      simp
    have hstop : Text.size (before ++ (lead ++ w.blank) ++ w.core) + Text.size w.trail =
        Text.size before + Text.size lead + Text.size w.chars := by
      rw [chars_eq]
      simp only [Text.size_append]
      omega
    have hspan : (w.place id owner (Text.size before + Text.size lead)).span =
        ⟨Text.size (before ++ (lead ++ w.blank)),
          Text.size (before ++ (lead ++ w.blank) ++ w.core)⟩ := by
      have hsize : Text.size before + Text.size lead + Text.size w.chars < Word.bound := by
        simp only [hsource, List.flatMap_cons, Text.size_append] at hs
        omega
      rw [place_span_core hsize]
      simp only [Text.size_append, Nat.add_assoc]
    obtain ⟨row, gap, htext, hgap, hrow⟩ := @ih (id + 1) (before ++ (lead ++ w.blank) ++ w.core)
      w.trail (fun v hv => hblank v (List.mem_cons_of_mem w hv)) htrail (by rw [hsplit]; simp)
    rw [hstop] at hrow
    refine ⟨lead ++ w.blank ++ (w.core ++ row), gap, ?_, hgap, ?_⟩
    · rw [List.flatMap_cons, chars_eq]
      simp only [List.append_assoc]
      rw [htext]
    · refine .cons (List.forall_mem_append.2 ⟨hlead, hw⟩) ?_ ?_ ?_
      · rw [hspan]
        exact Text.size_append ..
      · rw [hspan, hsplit]
        exact Text.slice?_append rfl (Text.size_append ..).symm
      · rw [hspan]
        exact hrow

lemma Piece.name?_kind_tag (id start : Nat) (written : WrittenTag) :
    ((tag written).kind id start).name? = some written.name := by
  rw [kind]
  split <;> rfl

lemma Piece.kind_tag_iff (id start : Nat) (written : WrittenTag) :
    (∃ attributes, (tag written).kind id start = .selfClosingTag written.name attributes) ↔
      written.ending.chars = ['/', '>'] ∨ isVoid written.name := by
  have hslashed : written.ending.chars = ['/', '>'] ↔ written.ending = .slashed := by
    cases written.ending <;> simp [Ending.chars]
  have hself : written.isSelfClosing ↔ written.ending = .slashed ∨ isVoid written.name := by
    rw [WrittenTag.isSelfClosing, Bool.or_eq_true, beq_iff_eq]
  rw [hslashed, ← hself, kind]
  split <;> simp_all

end Markup

namespace Placed

variable {p : Placed} {source : Text} {written : WrittenTag}

lemma exists_row (h : p ∈ placed source) (hs : Text.size source < Word.bound)
    (hp : p.item.piece = .tag written) : ∃ row gap,
      written.attributes.flatMap WrittenAttribute.chars = row ++ gap ∧ (∀ c ∈ gap, isBlank c) ∧
        Attribute.Row source (p.head.span.start + 1 + Text.size written.name) p.head.kind.attributes
          row := by
  obtain ⟨before, ds, hsource, hpos, -, hread, hattributes⟩ := exists_attributes_split h hp
  have hfront : source = before ++ ([] ++
      ((WrittenAttribute.readAll ds).1.flatMap WrittenAttribute.chars ++
        (WrittenAttribute.readAll ds).2)) := by
    rw [hsource, List.nil_append, WrittenAttribute.chars_readAll]
  obtain ⟨row, gap, hsplit, hgap, hrow⟩ := @WrittenAttribute.placeAll_row _ p.id (p.id + 1) _ _ []
    _ (fun w => WrittenAttribute.blank_of_mem_readAll) (by simp) hs hfront
  refine ⟨row, gap, ?_, hgap, ?_⟩
  · rw [hread]
    exact hsplit
  · rw [head_span h hs, hattributes, ← hpos]
    exact hrow

lemma spells (h : p ∈ placed source) (hs : Text.size source < Word.bound)
    (hp : p.item.piece = .tag written) : ∃ before row gap rest,
      p.head.Spells source written.name before row gap written.ending.chars rest := by
  obtain ⟨rest, hin⟩ := placed_isIn h
  obtain ⟨before, first, cs, hsource, hb, hfirst, hread⟩ := hin.tag_split hp
  have hreads := WrittenTag.reads hfirst cs
  rw [hread] at hreads
  obtain ⟨row, gap, hsplit, hgap, hrow⟩ := exists_row h hs hp
  have hchars : p.item.piece.chars =
      '<' :: (written.name ++ (row ++ (gap ++ written.gap ++ written.ending.chars))) := by
    simp [hp, Piece.chars, WrittenTag.chars, hsplit]
  have hafter : written.attributes.flatMap WrittenAttribute.chars ++
      (written.gap ++ (written.ending.chars ++ rest)) =
        row ++ (gap ++ written.gap ++ (written.ending.chars ++ rest)) := by
    simp [hsplit]
  refine ⟨before, row, gap ++ written.gap, rest, ?_, ?_, ?_, ?_, hrow, ?_, hreads.gap_stop, ?_,
    hreads.ending.chars_eq_nil_iff⟩
  · rw [hsource, hreads.chars_eq, hafter]
    simp
  · rw [← hchars, head_span h hs, hb, hp]
    rfl
  · rw [← hchars]
    exact slice_span h hs (by simp [hp])
  · rw [← hafter]
    exact hreads.name
  · exact List.forall_mem_append.2 ⟨hgap, hreads.gap⟩
  · cases written.ending <;> simp [Markup.Ending.chars]

end Placed

/-- The text of an opening tag with a name, part by part. It is self-closing for its ending or its name,
and no start tag has a name that makes it so. -/
theorem tag_text_exact (source : Text) (hs : Text.size source < Word.bound) :
    (∀ n ∈ (parse source).nodes, n.kind.isOpeningTag → ∀ name, n.name? = some name → name ≠ [] →
      n.head.Spaced ∧ ∃ before row gap ending rest,
        n.head.Spells source name before row gap ending rest ∧
          ((∃ attributes, n.kind = .selfClosingTag name attributes) ↔
            ending = ['/', '>'] ∨ isVoid name)) ∧
    ∀ n ∈ (parse source).nodes, ∀ name attributes, n.kind = .startTag name attributes →
      isVoid name = false := by
  constructor
  · intro n hn hopening name hname hne
    rcases head_cases_of_mem_nodes hn with hroot | ⟨p, hp, hhead⟩
    · rw [Node.kind, hroot] at hopening
      cases hopening
    · rw [Node.kind, ← hhead] at hopening ⊢
      rw [Node.name?, ← hhead] at hname
      have hkind : p.head.kind = p.item.piece.kind p.id p.start := rfl
      rw [hkind] at hopening hname ⊢
      refine ⟨p.spaced hp hs, ?_⟩
      cases hpiece : p.item.piece with
      | nameless c =>
        rw [hpiece] at hname
        exact absurd (Option.some.inj hname).symm hne
      | tag written =>
        obtain ⟨before, row, gap, rest, hspells⟩ := p.spells hp hs hpiece
        rw [hpiece, Piece.name?_kind_tag] at hname
        obtain rfl := Option.some.inj hname
        exact ⟨before, row, gap, _, rest, hspells, Piece.kind_tag_iff ..⟩
      | _ =>
        rw [hpiece] at hopening
        cases hopening
  · intro n hn name attributes hkind
    rcases head_cases_of_mem_nodes hn with hroot | ⟨p, hp, hhead⟩
    · rw [Node.kind, hroot] at hkind
      cases hkind
    · rw [Node.kind, ← hhead] at hkind
      exact Piece.not_void_of_kind hkind

theorem tag_text_exact_unended :
    Text.size ['<', 'b', 'r', '>', '<', 'p', ' ', 'é', ' ', '/'] < Word.bound ∧
    ((parse ['<', 'b', 'r', '>', '<', 'p', ' ', 'é', ' ', '/']).content.map
      fun n => (n.name?, n.head.span)) =
        [(some ['b', 'r'], ⟨0, 4⟩), (some ['p'], ⟨4, 10⟩), (none, ⟨10, 11⟩)] ∧
    ∃ n ∈ (parse ['<', 'b', 'r', '>', '<', 'p', ' ', 'é', ' ', '/']).nodes,
      n.kind.isOpeningTag ∧ n.name? = some ['p'] ∧ n.head.Spaced ∧ ∃ before row gap ending rest,
        n.head.Spells ['<', 'b', 'r', '>', '<', 'p', ' ', 'é', ' ', '/'] ['p'] before row gap ending
          rest := by
  refine ⟨by decide, by decide +kernel, ?_⟩
  have htag : ∃ n ∈ (parse ['<', 'b', 'r', '>', '<', 'p', ' ', 'é', ' ', '/']).nodes,
      n.kind.isOpeningTag ∧ n.name? = some ['p'] := by decide +kernel
  obtain ⟨n, hn, hopening, hname⟩ := htag
  obtain ⟨hspaced, before, row, gap, ending, rest, hspells, -⟩ :=
    (tag_text_exact _ (by decide)).1 n hn hopening ['p'] hname (by decide)
  exact ⟨n, hn, hopening, hname, hspaced, before, row, gap, ending, rest, hspells⟩

end TemplateMarkup

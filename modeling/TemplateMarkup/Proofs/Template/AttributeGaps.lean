import Mathlib.Data.List.Chain
import TemplateMarkup.Proofs.Template.TagText

namespace TemplateMarkup

open Markup (Piece WrittenAttribute WrittenTag)
open Text (isBlank)

namespace Attribute

/-- `b` stands behind `a` with nothing but blanks between. They count as read on the way to `b`, except
behind a name alone: there are some then, and they count for neither. -/
structure Follows (source : Text) (a b : Attribute) : Prop where
  gap : ∃ gap, Text.slice? a.span.stop b.span.start source = some gap ∧ ∀ c ∈ gap, isBlank c
  assigned : a.span.slice source ≠ a.name → b.outerStart = a.span.stop
  alone : a.span.slice source = a.name → a.span.stop < b.outerStart ∧ b.outerStart = b.span.start

def Gapless : Nat → List Attribute → Prop
  | _, [] => True
  | pos, a :: as => a.outerStart = pos ∧ Gapless a.span.stop as

instance decidableGapless : (pos : Nat) → (as : List Attribute) → Decidable (Gapless pos as)
  | _, [] => .isTrue trivial
  | _, a :: as =>
    have := decidableGapless a.span.stop as
    instDecidableAnd

lemma gapless_iff {source : Text} {pos : Nat} {as : List Attribute}
    (hfirst : ∀ a ∈ as.head?, a.outerStart = pos) (hchain : as.IsChain (Follows source)) :
    Gapless pos as ↔ ∀ a ∈ as.dropLast, a.span.slice source ≠ a.name := by
  induction as generalizing pos with
  | nil => simp [Gapless]
  | cons a as ih =>
    have ha : a.outerStart = pos := hfirst a rfl
    cases as with
    | nil => simp [Gapless, ha]
    | cons b bs =>
      obtain ⟨hfollows, hrest⟩ := List.isChain_cons_cons.1 hchain
      rw [List.dropLast_cons_cons, List.forall_mem_cons, Gapless, and_iff_right ha]
      by_cases hname : a.span.slice source = a.name
      · refine iff_of_false (fun h => ?_) fun h => h.1 hname
        have hlt := (hfollows.alone hname).1
        have hstart : b.outerStart = a.span.stop := h.1
        omega
      · have hnext : ∀ c ∈ (b :: bs).head?, c.outerStart = a.span.stop := by
          rintro c ⟨rfl⟩
          exact hfollows.assigned hname
        rw [ih hnext hrest, and_iff_right hname]

end Attribute

namespace Markup.WrittenAttribute

variable {cs rest more source before : Text} {w v : WrittenAttribute} {owner id : Nat}

def Precedes (w v : WrittenAttribute) : Prop :=
  w.assignment = none → w.trail ≠ [] ∧ v.blank = []

lemma precedes_of_read? (hw : read? cs = some (w, rest)) (hv : read? rest = some (v, more)) :
    w.Precedes v := by
  have hnext := reads_of_read? hv
  rw [← chars_of_read? hv] at hnext
  obtain ⟨hblank, hrun⟩ := hnext.name_run
  have hrest : rest = v.blank ++ (v.name ++ (v.tail ++ (v.trail ++ more))) := by
    rw [← chars_of_read? hv, chars_eq, core_eq]
    simp
  intro hnone
  cases reads_of_read? hw with
  | assigned => cases hnone
  | @plain blank name gap rest _ hname hgap hsign =>
    obtain ⟨-, -, hstop⟩ := Text.cutBlank_eq hgap
    have hv : v.blank = [] := by
      cases hb : v.blank with
      | nil => rfl
      | cons c blank =>
        have hc := hstop c (by rw [hrest, hb]; rfl)
        rw [hblank c (by rw [hb]; exact List.mem_cons_self ..)] at hc
        cases hc
    refine ⟨?_, hv⟩
    rintro rfl
    -- Without blanks the name of `v` would go on with the name before it.
    obtain ⟨c, hc, hattribute⟩ := hrun.head?
    rw [List.nil_append, hrest, hv, List.nil_append] at hname
    have hend := hname.stop c (by rw [List.head?_append, hc]; rfl)
    rw [hattribute] at hend
    cases hend

lemma readAll_isChain (cs : Text) : (readAll cs).1.IsChain Precedes := by
  induction cs using readAll_induction with
  | none cs hr =>
    rw [readAll_of_read?_none hr]
    exact .nil
  | some cs w rest hr ih =>
    rw [readAll_of_read? hr]
    refine List.isChain_cons.2 ⟨fun v hv => ?_, ih⟩
    cases hnext : read? rest with
    | none =>
      rw [readAll_of_read?_none hnext] at hv
      cases hv
    | some read =>
      obtain ⟨u, more⟩ := read
      rw [readAll_of_read? hnext] at hv
      obtain rfl := Option.some.inj hv
      exact precedes_of_read? hr hnext

lemma tail_eq_nil_iff (w : WrittenAttribute) : w.tail = [] ↔ w.assignment = none := by
  cases h : w.assignment <;> simp [tail, h, Assignment.chars]

lemma trail_of_assignment (h : w.assignment ≠ none) : w.trail = [] := by
  obtain ⟨assignment, ha⟩ := Option.ne_none_iff_exists'.1 h
  rw [trail, ha]

lemma place_start {pos : Nat} (h : pos + Text.size w.chars < Word.bound) :
    (w.place id owner pos).span.start = pos + Text.size w.blank := by
  rw [place_span_core h]

lemma place_stop_add_trail {pos : Nat} (h : pos + Text.size w.chars < Word.bound) :
    (w.place id owner pos).span.stop + Text.size w.trail = pos + Text.size w.chars := by
  have hchars := congrArg Text.size w.chars_eq
  simp only [Text.size_append] at hchars
  rw [place_span_core h]
  show pos + Text.size w.blank + Text.size w.core + Text.size w.trail = _
  omega

lemma slice_place_eq_name_iff (hb : Text.size before + Text.size w.chars < Word.bound)
    (hsource : source = before ++ (w.chars ++ rest)) :
    (w.place id owner (Text.size before)).span.slice source =
      (w.place id owner (Text.size before)).name ↔ w.assignment = none := by
  have hsplit : source = before ++ w.blank ++ (w.core ++ (w.trail ++ rest)) := by
    rw [hsource, chars_eq]
    simp
  have hcore : (w.place id owner (Text.size before)).span.slice source = w.core := by
    rw [Span.slice, place_span_core hb, hsplit]
    exact Text.slice_append (Text.size_append ..) rfl
  rw [hcore, place_name, core_eq, List.append_right_eq_self, tail_eq_nil_iff]

lemma slice?_between (hb : Text.size before + Text.size w.chars < Word.bound)
    (hsource : source = before ++ (w.chars ++ (v.chars ++ rest))) :
    Text.slice? (w.place id owner (Text.size before)).span.stop
      (Text.size before + Text.size w.chars + Text.size v.blank) source =
        some (w.trail ++ v.blank) := by
  have hstop := @place_stop_add_trail _ owner id _ hb
  have hsplit : source =
      before ++ w.blank ++ w.core ++ (w.trail ++ v.blank ++ (v.core ++ (v.trail ++ rest))) := by
    rw [hsource, w.chars_eq, v.chars_eq]
    simp
  rw [hsplit]
  refine Text.slice?_append ?_ ?_
  · rw [place_span_core hb]
    simp only [Text.size_append]
  · rw [Text.size_append, ← hstop, Nat.add_assoc]

lemma place_follows {i j : Nat} (hs : Text.size source < Word.bound)
    (hsource : source = before ++ (w.chars ++ (v.chars ++ rest)))
    (htrail : ∀ c ∈ w.trail, isBlank c) (hblank : ∀ c ∈ v.blank, isBlank c)
    (hnext : w.Precedes v) : (w.place i owner (Text.size before)).Follows source
      (v.place j owner (Text.size before + Text.size w.chars)) := by
  have hsize := congrArg Text.size hsource
  simp only [Text.size_append] at hsize
  have hw : Text.size before + Text.size w.chars < Word.bound := by omega
  have hv : Text.size before + Text.size w.chars + Text.size v.chars < Word.bound := by omega
  have hname := @slice_place_eq_name_iff _ _ _ _ owner i hw hsource
  have hstop := @place_stop_add_trail _ owner i _ hw
  have houter : (v.place j owner (Text.size before + Text.size w.chars)).outerStart =
      Text.size before + Text.size w.chars := by
    rw [place_outerStart, Word.wrap_of_lt hw]
  constructor
  · rw [place_start hv]
    exact ⟨_, slice?_between hw hsource, List.forall_mem_append.2 ⟨htrail, hblank⟩⟩
  · intro hne
    rw [houter, ← hstop, trail_of_assignment (mt hname.2 hne)]
    rfl
  · intro heq
    obtain ⟨hgap, hnil⟩ := hnext (hname.1 heq)
    have hpos := mt Text.size_eq_zero_iff.1 hgap
    rw [houter, place_start hv, hnil]
    exact ⟨by omega, rfl⟩

lemma placeAll_head?_outerStart {pos : Nat} (h : pos < Word.bound) (as : List WrittenAttribute) :
    ∀ a ∈ (placeAll owner id pos as).head?, a.outerStart = pos := by
  intro a ha
  cases as with
  | nil => cases ha
  | cons w as =>
    obtain rfl := Option.some.inj ha
    rw [place_outerStart, Word.wrap_of_lt h]

lemma placeAll_isChain {as : List WrittenAttribute} (hs : Text.size source < Word.bound)
    (hsource : source = before ++ (as.flatMap chars ++ rest))
    (hblank : ∀ w ∈ as, (∀ c ∈ w.blank, isBlank c) ∧ ∀ c ∈ w.trail, isBlank c)
    (hchain : as.IsChain Precedes) :
    (placeAll owner id (Text.size before) as).IsChain (Attribute.Follows source) := by
  induction as generalizing id before with
  | nil => exact .nil
  | cons w as ih =>
    obtain ⟨hnext, hrest⟩ := List.isChain_cons.1 hchain
    have hsplit : source = before ++ w.chars ++ (as.flatMap chars ++ rest) := by
      rw [hsource, List.flatMap_cons]
      simp
    have hplaced := @ih _ (id + 1) hsplit (fun v hv => hblank v (List.mem_cons_of_mem w hv)) hrest
    rw [Text.size_append] at hplaced
    refine List.isChain_cons.2 ⟨fun b hb => ?_, hplaced⟩
    cases as with
    | nil => cases hb
    | cons v vs =>
      obtain rfl := Option.some.inj hb
      have hpair : source = before ++ (w.chars ++ (v.chars ++ (vs.flatMap chars ++ rest))) := by
        rw [hsource]
        simp
      exact place_follows hs hpair (hblank w (by simp)).2 (hblank v (by simp)).1 (hnext v rfl)

end Markup.WrittenAttribute

namespace Placed

variable {p : Placed} {source : Text}

lemma attributes_eq_nil (hp : ∀ written, p.item.piece ≠ .tag written) :
    p.head.kind.attributes = [] := by
  refine List.eq_nil_iff_forall_not_mem.2 fun a ha => ?_
  obtain ⟨written, htag, -⟩ := Piece.mem_attributes_kind ha
  exact hp written htag

lemma name?_of_tag {written : WrittenTag} (hp : p.item.piece = .tag written) :
    p.head.kind.name? = some written.name := by
  show (p.item.piece.kind p.id p.start).name? = _
  rw [hp, Piece.name?_kind_tag]

lemma attributes_follow (h : p ∈ placed source) (hs : Text.size source < Word.bound) {name : Text}
    (hname : p.head.kind.name? = some name) :
    (∀ a ∈ p.head.kind.attributes.head?,
      a.outerStart = p.head.span.start + 1 + Text.size name) ∧
        p.head.kind.attributes.IsChain (Attribute.Follows source) := by
  by_cases hp : ∃ written, p.item.piece = .tag written
  · obtain ⟨written, hp⟩ := hp
    obtain ⟨before, ds, hsource, hpos, -, -, hattributes⟩ := exists_attributes_split h hp
    rw [name?_of_tag hp] at hname
    obtain rfl := Option.some.inj hname
    rw [← WrittenAttribute.chars_readAll ds] at hsource
    have hbefore : Text.size before < Word.bound := by
      rw [hsource, Text.size_append] at hs
      omega
    have hname : p.head.span.start + 1 + Text.size written.name = Text.size before := by
      rw [head_span h hs, hpos]
    rw [hattributes, hname]
    exact ⟨WrittenAttribute.placeAll_head?_outerStart hbefore _,
      WrittenAttribute.placeAll_isChain hs hsource (fun w => WrittenAttribute.blank_of_mem_readAll)
        (WrittenAttribute.readAll_isChain ds)⟩
  · rw [attributes_eq_nil fun written hw => hp ⟨written, hw⟩]
    exact ⟨by simp, .nil⟩

end Placed

lemma Attribute.Spells.outer_blank {source before tail after : Text} {a : Attribute}
    (h : a.Spells source before tail after) :
    ∃ blank, Text.slice? a.outerStart a.span.start source = some blank ∧ ∀ c ∈ blank, isBlank c := by
  obtain ⟨front, blank, rfl, houter, hblank⟩ := h.outer
  refine ⟨blank, ?_, hblank⟩
  rw [h.source_eq, List.append_assoc]
  refine Text.slice?_append houter.symm ?_
  rw [houter, h.span_eq, Text.size_append]

/-- Only blanks are skipped to reach an attribute. What is recorded of them begins behind the name of the
tag for the first attribute. It leaves nothing out inside the tag just if no attribute but the last one is
a name alone. -/
theorem attribute_gaps_exact (source : Text) (hs : Text.size source < Word.bound) :
    ∀ n ∈ (parse source).nodes,
      (∀ a ∈ n.attributes, ∃ blank, Text.slice? a.outerStart a.span.start source = some blank ∧
        ∀ c ∈ blank, isBlank c) ∧
      ∀ name, n.name? = some name →
        (∀ a ∈ n.attributes.head?, a.outerStart = n.head.span.start + 1 + Text.size name) ∧
        n.attributes.IsChain (Attribute.Follows source) ∧
        (Attribute.Gapless (n.head.span.start + 1 + Text.size name) n.attributes ↔
          ∀ a ∈ n.attributes.dropLast, a.span.slice source ≠ a.name) := by
  intro n hn
  constructor
  · intro a ha
    obtain ⟨before, tail, after, hspells, -⟩ := attribute_text_exact source hs n hn a ha
    exact hspells.outer_blank
  · intro name hname
    have hfollow : (∀ a ∈ n.attributes.head?,
        a.outerStart = n.head.span.start + 1 + Text.size name) ∧
          n.attributes.IsChain (Attribute.Follows source) := by
      rcases head_cases_of_mem_nodes hn with hroot | ⟨p, hp, hhead⟩
      · rw [Node.attributes, hroot]
        exact ⟨by simp [rootHead, NodeKind.attributes], .nil⟩
      · rw [Node.name?, ← hhead] at hname
        rw [Node.attributes, ← hhead]
        exact p.attributes_follow hp hs hname
    obtain ⟨hfirst, hchain⟩ := hfollow
    exact ⟨hfirst, hchain, Attribute.gapless_iff hfirst hchain⟩

theorem attribute_gaps_exact_mixed :
    Text.size ['<', 'a', ' ', 'b', '=', 'é', ' ', ' ', 'c', '/', '>'] < Word.bound ∧
    ∃ n ∈ (parse ['<', 'a', ' ', 'b', '=', 'é', ' ', ' ', 'c', '/', '>']).nodes,
      (n.attributes.map fun a => (a.outerStart, a.span)) = [(2, ⟨3, 7⟩), (7, ⟨9, 10⟩)] ∧
        n.attributes.IsChain
          (Attribute.Follows ['<', 'a', ' ', 'b', '=', 'é', ' ', ' ', 'c', '/', '>']) ∧
        Attribute.Gapless 2 n.attributes := by
  refine ⟨by decide, ?_⟩
  have htag : ∃ n ∈ (parse ['<', 'a', ' ', 'b', '=', 'é', ' ', ' ', 'c', '/', '>']).nodes,
      n.name? = some ['a'] ∧ n.head.span.start = 0 ∧
        (n.attributes.map fun a => (a.outerStart, a.span)) = [(2, ⟨3, 7⟩), (7, ⟨9, 10⟩)] ∧
        ∀ a ∈ n.attributes.dropLast,
          a.span.slice ['<', 'a', ' ', 'b', '=', 'é', ' ', ' ', 'c', '/', '>'] ≠ a.name := by
    decide +kernel
  obtain ⟨n, hn, hname, hstart, hspans, hassigned⟩ := htag
  obtain ⟨-, hchain, hgapless⟩ := (attribute_gaps_exact _ (by decide) n hn).2 _ hname
  rw [hstart] at hgapless
  exact ⟨n, hn, hspans, hchain, hgapless.2 hassigned⟩

/-- The blank between two names alone is recorded with neither of them. -/
theorem attribute_gap_left_out :
    Text.size ['<', 'a', ' ', 'b', ' ', 'c', '>'] < Word.bound ∧
    ∃ n ∈ (parse ['<', 'a', ' ', 'b', ' ', 'c', '>']).nodes, n.name? = some ['a'] ∧
      (n.attributes.map fun a => (a.outerStart, a.span)) = [(2, ⟨3, 4⟩), (5, ⟨5, 6⟩)] ∧
      ¬ Attribute.Gapless (n.head.span.start + 1 + Text.size ['a']) n.attributes := by
  decide +kernel

end TemplateMarkup

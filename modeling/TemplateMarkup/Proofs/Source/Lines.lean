import Mathlib.Data.List.Infix
import TemplateMarkup.Source.Lines

/-! Each offset of a source stands in exactly one line, and its position tells which one and how many bytes of
that line come before it. -/

namespace TemplateMarkup

namespace Text

def lines (cs : Text) : List Text :=
  cs.splitOn '\n'

def broken (ls : List Text) : Text :=
  ls.flatMap fun l => l ++ ['\n']

def brokenSize : List Text → Nat
  | [] => 0
  | l :: ls => size l + 1 + brokenSize ls

def lineStarts (start : Nat) : List Text → List Nat
  | [] => []
  | l :: ls => start :: lineStarts (start + (size l + 1)) ls

@[simp] lemma brokenSize_nil : brokenSize [] = 0 := rfl

@[simp] lemma brokenSize_cons (l : Text) (ls : List Text) :
    brokenSize (l :: ls) = size l + 1 + brokenSize ls := rfl

@[simp] lemma brokenSize_append (ls ms : List Text) :
    brokenSize (ls ++ ms) = brokenSize ls + brokenSize ms := by
  induction ls with
  | nil => rw [List.nil_append, brokenSize_nil, Nat.zero_add]
  | cons l ls ih =>
    rw [List.cons_append, brokenSize_cons, ih, brokenSize_cons]
    omega

lemma broken_cons (l : Text) (ls : List Text) : broken (l :: ls) = l ++ '\n' :: broken ls := by
  rw [broken, List.flatMap_cons, List.append_assoc]
  rfl

lemma broken_append (ls ms : List Text) : broken (ls ++ ms) = broken ls ++ broken ms :=
  List.flatMap_append

lemma size_broken (ls : List Text) : size (broken ls) = brokenSize ls := by
  induction ls with
  | nil => rfl
  | cons l ls ih =>
    rw [broken_cons, size_append, size_cons, ih, brokenSize_cons, Nat.add_assoc]
    rfl

lemma lines_feed (cs : Text) : lines ('\n' :: cs) = [] :: lines cs := by
  rw [lines, List.splitOn_cons_eq_if_modifyHead, if_pos (by decide)]
  rfl

lemma exists_lines (cs : Text) : ∃ l ls, lines cs = l :: ls :=
  List.exists_cons_of_ne_nil (List.splitOn_ne_nil '\n' cs)

lemma lines_cons {c : Char} {cs l : Text} {ls : List Text} (hc : c ≠ '\n') (h : lines cs = l :: ls) :
    lines (c :: cs) = (c :: l) :: ls := by
  rw [lines] at h ⊢
  rw [List.splitOn_cons_eq_if_modifyHead, if_neg (by simpa using hc), h]
  rfl

lemma broken_lines (cs : Text) : broken (lines cs) = cs ++ ['\n'] := by
  induction cs with
  | nil => rfl
  | cons c cs ih =>
    by_cases hc : c = '\n'
    · rw [hc, lines_feed, broken_cons, ih]
      rfl
    · obtain ⟨l, ls, h⟩ := exists_lines cs
      rw [h, broken_cons] at ih
      rw [lines_cons hc h, broken_cons, List.cons_append, ih, List.cons_append]

lemma brokenSize_lines (cs : Text) : brokenSize (lines cs) = size cs + 1 := by
  rw [← size_broken, broken_lines, size_append]
  rfl

lemma length_le_brokenSize (ls : List Text) : ls.length ≤ brokenSize ls := by
  induction ls with
  | nil => exact Nat.le_refl 0
  | cons l ls ih =>
    rw [List.length_cons, brokenSize_cons]
    omega

@[simp] lemma length_lineStarts (start : Nat) (ls : List Text) :
    (lineStarts start ls).length = ls.length := by
  induction ls generalizing start with
  | nil => rfl
  | cons l ls ih => rw [lineStarts, List.length_cons, ih, List.length_cons]

lemma lineStarts_concat (start : Nat) (ls : List Text) (l : Text) :
    lineStarts start (ls ++ [l]) = lineStarts start ls ++ [start + brokenSize ls] := by
  induction ls generalizing start with
  | nil => rfl
  | cons m ls ih =>
    rw [List.cons_append, lineStarts, ih, lineStarts, List.cons_append, brokenSize_cons, Nat.add_assoc]

lemma lineStarts_takeWhile_of_lt {start offset : Nat} (h : offset < start) (ls : List Text) :
    (lineStarts start ls).takeWhile (· ≤ offset) = [] := by
  cases ls with
  | nil => rfl
  | cons l ls => rw [lineStarts, List.takeWhile_cons_of_neg (by simpa using h)]

lemma exists_line {offset : Nat} (ls : List Text) : ∀ start, start ≤ offset →
    offset < start + brokenSize ls → ∃ before line after, ls = before ++ line :: after ∧
      start + brokenSize before ≤ offset ∧ offset ≤ start + brokenSize before + size line ∧
      (lineStarts start ls).takeWhile (· ≤ offset) = lineStarts start (before ++ [line]) := by
  induction ls with
  | nil =>
    intro start hle hlt
    rw [brokenSize_nil] at hlt
    omega
  | cons l ls ih =>
    intro start hle hlt
    rw [brokenSize_cons] at hlt
    rw [lineStarts, List.takeWhile_cons_of_pos (by simpa using hle)]
    by_cases hin : offset ≤ start + size l
    · refine ⟨[], l, ls, rfl, hle, hin, ?_⟩
      rw [lineStarts_takeWhile_of_lt (by omega)]
      rfl
    · obtain ⟨before, line, after, rfl, hstart, hstop, htake⟩ :=
        ih (start + (size l + 1)) (by omega) (by omega)
      refine ⟨l :: before, line, after, rfl, ?_, ?_, ?_⟩
      · rw [brokenSize_cons]
        omega
      · rw [brokenSize_cons]
        omega
      · rw [htake, List.cons_append, lineStarts]

end Text

/-- A position that stands in its line, `offset` bytes behind the start of the source. -/
structure Position.IsAt (source : Text) (offset : Nat) (p : Position) : Prop where
  offset_eq : Text.brokenSize ((Text.lines source).take p.line) + p.column = offset
  column_le : ∃ line, (Text.lines source)[p.line]? = some line ∧ p.column ≤ Text.size line

namespace Position.IsAt

variable {source : Text} {offset : Nat} {p q : Position}

lemma split (h : p.IsAt source offset) : ∃ before line after,
    Text.lines source = before ++ line :: after ∧ before.length = p.line ∧
      Text.brokenSize before + p.column = offset ∧ p.column ≤ Text.size line := by
  obtain ⟨line, hline, hcolumn⟩ := h.column_le
  obtain ⟨hlt, rfl⟩ := List.getElem?_eq_some_iff.1 hline
  refine ⟨(Text.lines source).take p.line, _, (Text.lines source).drop (p.line + 1), ?_, ?_,
    h.offset_eq, hcolumn⟩
  · rw [← List.drop_eq_getElem_cons hlt, List.take_append_drop]
  · rw [List.length_take]
    omega

lemma of_split {before after : List Text} {line : Text}
    (hlines : Text.lines source = before ++ line :: after) (hle : Text.brokenSize before ≤ offset)
    (hin : offset ≤ Text.brokenSize before + Text.size line) :
    IsAt source offset ⟨before.length, offset - Text.brokenSize before⟩ := by
  refine ⟨?_, line, ?_, ?_⟩
  · rw [hlines, List.take_left]
    exact Nat.add_sub_of_le hle
  · rw [hlines, List.getElem?_append_right (Nat.le_refl _), Nat.sub_self]
    rfl
  · exact Nat.sub_le_iff_le_add'.2 hin

lemma line_le (hp : p.IsAt source offset) (hq : q.IsAt source offset) : p.line ≤ q.line := by
  by_contra hlt
  obtain ⟨front, line, back, hlines, hlen, hoffset, -⟩ := hp.split
  obtain ⟨before, mid, after, hlines', hlen', hoffset', hin⟩ := hq.split
  have hprefix : before ++ [mid] <+: front := by
    apply List.prefix_of_prefix_length_le ⟨after, ?_⟩ ⟨line :: back, hlines.symm⟩
    · rw [List.length_append, List.length_singleton]
      omega
    · rw [hlines', List.append_assoc]
      rfl
  obtain ⟨more, rfl⟩ := hprefix
  rw [Text.brokenSize_append, Text.brokenSize_append, Text.brokenSize_cons] at hoffset
  omega

lemma unique (hp : p.IsAt source offset) (hq : q.IsAt source offset) : p = q := by
  have hline : p.line = q.line := Nat.le_antisymm (hp.line_le hq) (hq.line_le hp)
  have hcolumn := hp.offset_eq.trans hq.offset_eq.symm
  rw [hline, Nat.add_left_cancel_iff] at hcolumn
  cases p
  cases q
  simp_all

lemma line_le_size (h : p.IsAt source offset) : p.line ≤ Text.size source := by
  obtain ⟨before, line, after, hlines, hlen, -⟩ := h.split
  have hcount := Text.length_le_brokenSize (Text.lines source)
  rw [Text.brokenSize_lines, hlines, List.length_append, List.length_cons] at hcount
  omega

lemma le_size (h : p.IsAt source offset) :
    p.column ≤ Text.size source ∧ offset ≤ Text.size source := by
  obtain ⟨before, line, after, hlines, -, hoffset, hcolumn⟩ := h.split
  have hsize := Text.brokenSize_lines source
  rw [hlines, Text.brokenSize_append, Text.brokenSize_cons] at hsize
  omega

end Position.IsAt

namespace Lines

variable {source : Text} {offset : Nat} {p : Position}

lemma startsFrom_eq (cs : Text) : ∀ (seen : List Nat) (offset : Nat),
    offset + Text.size cs < Word.bound →
      startsFrom seen offset cs = seen.reverse ++ (Text.lineStarts offset (Text.lines cs)).tail := by
  induction cs with
  | nil =>
    intro seen offset _
    rw [startsFrom, show Text.lines [] = [[]] from rfl]
    simp [Text.lineStarts]
  | cons c cs ih =>
    intro seen offset h
    rw [Text.size_cons] at h
    obtain ⟨l, ls, hlines⟩ := Text.exists_lines cs
    rw [startsFrom, ih _ _ (by omega), hlines, Text.lineStarts, List.tail_cons]
    by_cases hc : c = '\n'
    · subst hc
      rw [if_pos rfl, Word.wrap_of_lt (by omega), Text.lines_feed, hlines]
      simp [Text.lineStarts, show Char.utf8Size '\n' = 1 from rfl]
    · rw [if_neg hc, Text.lines_cons hc hlines, Text.lineStarts, List.tail_cons, Text.size_cons]
      simp only [Nat.add_assoc]

lemma starts_ofText (hs : Text.size source < Word.bound) :
    (ofText source).starts = Text.lineStarts 0 (Text.lines source) := by
  obtain ⟨l, ls, hlines⟩ := Text.exists_lines source
  rw [ofText, startsFrom_eq source [0] 0 (by omega), hlines]
  rfl

lemma size_ofText (hs : Text.size source < Word.bound) : (ofText source).size = Text.size source :=
  Word.wrap_of_lt hs

lemma exists_position? (hs : Text.size source < Word.bound) (h : offset ≤ Text.size source) :
    ∃ p, (ofText source).position? offset = some p ∧ p.IsAt source offset := by
  have hbroken := Text.brokenSize_lines source
  obtain ⟨before, line, after, hlines, hstart, hstop, htake⟩ :=
    Text.exists_line (Text.lines source) 0 (Nat.zero_le offset) (by omega)
  rw [Nat.zero_add] at hstart hstop
  refine ⟨_, ?_, Position.IsAt.of_split hlines hstart hstop⟩
  simp only [position?, if_neg (Nat.not_lt.2 ((size_ofText hs).symm ▸ h)), starts_ofText hs, htake,
    Text.length_lineStarts, Text.lineStarts_concat, List.getLastD_concat, List.length_append,
    List.length_singleton, Nat.add_sub_cancel, Nat.zero_add]

lemma position?_eq_some_iff (hs : Text.size source < Word.bound) :
    (ofText source).position? offset = some p ↔ p.IsAt source offset := by
  by_cases h : offset ≤ Text.size source
  · obtain ⟨q, hq, hat⟩ := exists_position? hs h
    rw [hq, Option.some.injEq]
    constructor
    · rintro rfl
      exact hat
    · exact hat.unique
  · rw [position?, if_pos (by rw [size_ofText hs]; omega)]
    constructor
    · intro hnone
      cases hnone
    · intro hat
      exact absurd hat.le_size.2 h

end Lines

end TemplateMarkup

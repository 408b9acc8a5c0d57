import Mathlib.Data.List.DropRight
import TemplateMarkup.Proofs.Source.LineFeeds

/-! The text of a line is cut out between the start of the line and that of the next one, of the source or of
another text. -/

namespace TemplateMarkup

structure Text.IsTrimmed (line shown : Text) : Prop where
  line_eq : ∃ n, line = shown ++ List.replicate n '\r'
  getLast?_ne : shown.getLast? ≠ some '\r'

def Lines.CutsOut (lines : Lines) (k : Nat) (other shown : Text) : Prop :=
  ∃ front line back, other = front ++ (line ++ back) ∧ Text.IsTrimmed line shown ∧
    lines.starts[k]? = some (Text.size front) ∧
      lines.starts[k + 1]?.elim (back = []) (· = Text.size front + Text.size line + 1)

/-- Each line of the source has its text, and no number past them has one. In another text a line has a piece
of that text or nothing, and its stop is never one before offset 0. -/
structure Lines.HasTexts (source : Text) (lines : Lines) : Prop where
  count_eq : lines.count = (Text.lines source).length
  text_eq : ∀ k line, (Text.lines source)[k]? = some line →
    ∃ shown, Text.IsTrimmed line shown ∧ lines.text? k source = some shown
  text_none : ∀ k other, lines.count ≤ k → lines.text? k other = none
  start_pos : ∀ k start, lines.starts[k + 1]? = some start → 0 < start
  text_iff : ∀ k other shown, lines.text? k other = some shown ↔ lines.CutsOut k other shown
  text_infix : ∀ k other shown, lines.text? k other = some shown → shown <:+: other

namespace Text

variable {line shown source : Text} {before after : List Text}

lemma trimReturns_isTrimmed (line : Text) : IsTrimmed line (Lines.trimReturns line) := by
  let isReturn : Char → Bool := (· == '\r')
  have hkept : Lines.trimReturns line = line.rdropWhile isReturn := rfl
  constructor
  · have hreturns : line.rtakeWhile isReturn =
        List.replicate (line.rtakeWhile isReturn).length '\r' := by
      apply List.eq_replicate_of_mem
      intro c hc
      have hreturn : isReturn c := List.mem_rtakeWhile_imp hc
      exact beq_iff_eq.1 hreturn
    refine ⟨(line.rtakeWhile isReturn).length, ?_⟩
    rw [hkept, ← hreturns, List.rdropWhile_append_rtakeWhile]
  · intro hlast
    rw [hkept] at hlast
    have hne : line.rdropWhile isReturn ≠ [] := by
      intro hnil
      rw [hnil] at hlast
      cases hlast
    rw [List.getLast?_eq_some_getLast hne] at hlast
    exact List.rdropWhile_last_not isReturn line hne (beq_iff_eq.2 (Option.some.inj hlast))

lemma isTrimmed_iff : IsTrimmed line shown ↔ shown = Lines.trimReturns line := by
  constructor
  · rintro ⟨⟨n, rfl⟩, hlast⟩
    induction n with
    | zero =>
      rw [List.replicate_zero, List.append_nil]
      refine (List.rdropWhile_eq_self_iff.2 fun hne hreturn => hlast ?_).symm
      rw [List.getLast?_eq_some_getLast hne, beq_iff_eq.1 hreturn]
    | succ n ih =>
      rw [List.replicate_succ', ← List.append_assoc]
      exact ih.trans (List.rdropWhile_concat_pos (· == '\r') _ '\r' rfl).symm
  · rintro rfl
    exact trimReturns_isTrimmed line

lemma lineStarts_getElem? {i start : Nat} {ls : List Text} (h : i < ls.length) :
    (lineStarts start ls)[i]? = some (start + brokenSize (ls.take i)) := by
  have hlt : i < (lineStarts start ls).length := by rwa [length_lineStarts]
  have hstart := List.getElem?_eq_getElem hlt
  rw [hstart, ← eq_of_lineStarts_getElem? hstart]

lemma exists_behind (h : lines source = before ++ line :: after) : ∃ back,
    source = broken before ++ (line ++ back) ∧ (after = [] → back = []) := by
  have hsource := broken_lines source
  rw [h, broken_append, broken_cons] at hsource
  cases after using List.reverseRecOn with
  | nil =>
    refine ⟨[], @List.append_cancel_right _ _ ['\n'] _ ?_, fun _ => rfl⟩
    rw [← hsource]
    simp [broken]
  | append_singleton after last =>
    refine ⟨'\n' :: (broken after ++ last), @List.append_cancel_right _ _ ['\n'] _ ?_, ?_⟩
    · rw [← hsource]
      simp [broken]
    · simp

end Text

namespace Lines

variable {source other shown line : Text} {k start : Nat} {lines : Lines}

lemma start_pos (hs : Text.size source < Word.bound)
    (h : (ofText source).starts[k + 1]? = some start) : 0 < start := by
  rw [starts_ofText hs] at h
  obtain ⟨l, ls, hlines⟩ := Text.exists_lines source
  have hstart := Text.eq_of_lineStarts_getElem? h
  rw [hlines, List.take_succ_cons, Text.brokenSize_cons] at hstart
  omega

lemma text?_eq_some_iff (hpos : ∀ next, lines.starts[k + 1]? = some next → 0 < next) :
    lines.text? k other = some shown ↔ lines.CutsOut k other shown := by
  rw [text?, CutsOut]
  cases hstart : lines.starts[k]? with
  | none => simp
  | some start =>
    cases hnext : lines.starts[k + 1]? with
    | none =>
      simp only [Option.map_eq_some_iff, Text.slice?_eq_some_iff, Option.elim_none,
        Option.some.injEq]
      constructor
      · rintro ⟨line, ⟨front, back, rfl, rfl, hstop⟩, rfl⟩
        refine ⟨front, line, back, rfl, Text.trimReturns_isTrimmed line, rfl, ?_⟩
        rw [← Text.size_eq_zero_iff]
        simp only [Text.size_append] at hstop
        omega
      · rintro ⟨front, line, back, rfl, htrimmed, rfl, rfl⟩
        refine ⟨line, ⟨front, [], rfl, rfl, ?_⟩, (Text.isTrimmed_iff.1 htrimmed).symm⟩
        rw [List.append_nil, Text.size_append, Nat.add_comm]
    | some next =>
      have hnextpos := hpos next hnext
      simp only [Option.map_eq_some_iff, Text.slice?_eq_some_iff, Option.elim_some,
        Option.some.injEq]
      constructor
      · rintro ⟨line, ⟨front, back, rfl, rfl, hstop⟩, rfl⟩
        exact ⟨front, line, back, rfl, Text.trimReturns_isTrimmed line, rfl, by omega⟩
      · rintro ⟨front, line, back, rfl, htrimmed, rfl, hstop⟩
        exact ⟨line, ⟨front, back, rfl, rfl, by omega⟩, (Text.isTrimmed_iff.1 htrimmed).symm⟩

lemma text?_of_count_le (h : lines.count ≤ k) (other : Text) : lines.text? k other = none := by
  rw [text?, List.getElem?_eq_none h]

lemma count_eq_length (hs : Text.size source < Word.bound) :
    (ofText source).count = (Text.lines source).length := by
  rw [count, starts_ofText hs, Text.length_lineStarts]

lemma cutsOut_of_line (hs : Text.size source < Word.bound)
    (h : (Text.lines source)[k]? = some line) (htrimmed : Text.IsTrimmed line shown) :
    (ofText source).CutsOut k source shown := by
  obtain ⟨hlt, rfl⟩ := List.getElem?_eq_some_iff.1 h
  have hlines : Text.lines source =
      (Text.lines source).take k ++ (Text.lines source)[k] :: (Text.lines source).drop (k + 1) := by
    rw [← List.drop_eq_getElem_cons hlt, List.take_append_drop]
  obtain ⟨back, hsource, hback⟩ := Text.exists_behind hlines
  refine ⟨_, _, back, hsource, htrimmed, ?_, ?_⟩
  · rw [starts_ofText hs, Text.lineStarts_getElem? hlt, Text.size_broken, Nat.zero_add]
  · rw [starts_ofText hs]
    by_cases hnext : k + 1 < (Text.lines source).length
    · rw [Text.lineStarts_getElem? hnext, Option.elim_some, List.take_add_one, h, Option.toList_some,
        Text.brokenSize_append, Text.brokenSize_cons, Text.brokenSize_nil, Text.size_broken]
      omega
    · rw [List.getElem?_eq_none (by rw [Text.length_lineStarts]; omega), Option.elim_none]
      exact hback (List.drop_eq_nil_of_le (by omega))

lemma CutsOut.isInfix (h : lines.CutsOut k other shown) : shown <:+: other := by
  obtain ⟨front, line, back, rfl, ⟨⟨n, rfl⟩, -⟩, -⟩ := h
  exact ⟨front, List.replicate n '\r' ++ back, by simp⟩

lemma text?_of_line (hs : Text.size source < Word.bound) (h : (Text.lines source)[k]? = some line)
    (htrimmed : Text.IsTrimmed line shown) : (ofText source).text? k source = some shown :=
  (text?_eq_some_iff fun _ => start_pos hs).2 (cutsOut_of_line hs h htrimmed)

lemma hasTexts (hs : Text.size source < Word.bound) : HasTexts source (ofText source) where
  count_eq := count_eq_length hs
  text_eq k line h := by
    have htrimmed := Text.trimReturns_isTrimmed line
    exact ⟨_, htrimmed, text?_of_line hs h htrimmed⟩
  text_none k other h := text?_of_count_le h other
  start_pos k start h := start_pos hs h
  text_iff k other shown := text?_eq_some_iff fun _ => start_pos hs
  text_infix k other shown h := ((text?_eq_some_iff fun _ => start_pos hs).1 h).isInfix

end Lines

end TemplateMarkup

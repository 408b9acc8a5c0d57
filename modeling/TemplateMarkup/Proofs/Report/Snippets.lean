import TemplateMarkup.Proofs.Report.Positions
import TemplateMarkup.Proofs.Source.LineTexts

namespace TemplateMarkup

namespace Text

variable {front back shown line : Text}

lemma size_eq_length_iff {cs : Text} : size cs = cs.length ↔ ∀ c ∈ cs, c.utf8Size = 1 := by
  induction cs with
  | nil => simp
  | cons c cs ih =>
    have hc := c.utf8Size_pos
    have hcs := length_le_size cs
    rw [List.forall_mem_cons, ← ih, size_cons, List.length_cons]
    omega

lemma size_eq_length_take_iff (h : IsTrimmed (front ++ back) shown) :
    size front = (shown.take front.length).length ↔
      (∀ c ∈ front, c.utf8Size = 1) ∧ front <+: shown := by
  have hsize := length_le_size front
  have hshown : shown <+: front ++ back := by
    obtain ⟨⟨n, hn⟩, -⟩ := h
    exact ⟨_, hn.symm⟩
  have hprefix : front <+: shown ↔ front.length ≤ shown.length := by
    refine ⟨List.IsPrefix.length_le, fun hle => ?_⟩
    exact List.prefix_of_prefix_length_le (List.prefix_append front back) hshown hle
  rw [← size_eq_length_iff, hprefix, List.length_take]
  omega

end Text

lemma Position.IsAt.exists_front {source : Text} {offset : Nat} {p : Position}
    (h : p.IsAt source offset) (hb : Text.IsBoundary source offset) : ∃ front back,
      (Text.lines source)[p.line]? = some (front ++ back) ∧ Text.size front = p.column := by
  obtain ⟨before, line, after, hlines, hlen, hoffset, hcolumn⟩ := h.split
  obtain ⟨rest, hsource, -⟩ := Text.exists_behind hlines
  obtain ⟨front, behind, hsplit, hsize⟩ := hb
  obtain ⟨front, rfl⟩ : Text.broken before <+: front := by
    apply Text.prefix_of_size_le ⟨_, hsource.symm⟩ ⟨_, hsplit.symm⟩
    rw [Text.size_broken]
    omega
  rw [Text.size_append, Text.size_broken] at hsize
  rw [hsource, List.append_assoc, List.append_cancel_left_eq] at hsplit
  obtain ⟨back, rfl⟩ : front <+: line := by
    apply Text.prefix_of_size_le ⟨_, hsplit.symm⟩ (List.prefix_append line rest)
    omega
  refine ⟨front, back, ?_, by omega⟩
  rw [hlines, List.getElem?_append_right (by omega), ← hlen, Nat.sub_self, List.getElem?_cons_zero]

namespace Report

def markedLine (number : Nat) (shown : Text) (indent : Nat) : Text :=
  let digits := Text.decimal number
  [' ', ' '] ++ digits ++ [' ', '|', ' '] ++ shown ++ ['\n'] ++
    [' ', ' '] ++ List.replicate digits.length ' ' ++ [' ', '|', ' '] ++ List.replicate indent ' ' ++
    ['^', '\n']

def Diagnostic.block (path : Text) (start : Place) (shown : Text) (indent : Nat) (d : Diagnostic) : Text :=
  path ++ [':'] ++ start.shown ++ ['\n'] ++ d.severity.label ++ [':', ' '] ++ d.message ++
    [' ', '('] ++ d.code ++ [')', '\n'] ++ markedLine start.line shown indent ++ ['\n']

/-- The verbose form of a report has a block for a diagnostic. It shows the line of the source that the
diagnostic starts in, which is `front` up to the start and `back` behind it. -/
structure Diagnostic.Displayed (path source : Text) (before after : List Diagnostic) (d : Diagnostic)
    (start : Place) (front back shown : Text) (indent : Nat) : Prop where
  start_isAt : start.IsAt source
  offset_eq : start.offset = d.span.start
  line_eq : (Text.lines source)[start.line - 1]? = some (front ++ back)
  column_eq : start.column = Text.size front + 1
  trimmed : Text.IsTrimmed (front ++ back) shown
  render_eq : Format.humanVerbose.render path source (before ++ d :: after) =
    Format.humanVerbose.render path source before ++ d.block path start shown indent ++
      Format.humanVerbose.render path source after

variable {path source shown : Text} {before after : List Diagnostic} {d : Diagnostic}

lemma verbose_ofDiagnostic (h : (Lines.ofText source).text?
      (positionOrStart (Lines.ofText source) d.span.start).line source = some shown) :
    (Finding.ofDiagnostic path (Lines.ofText source) d).verbose (Lines.ofText source) source =
      d.block path (Place.ofOffset (Lines.ofText source) d.span.start) shown
        (positionOrStart (Lines.ofText source) d.span.start).column := by
  generalize hstart : positionOrStart (Lines.ofText source) d.span.start = p at h ⊢
  have hplace : Place.ofOffset (Lines.ofText source) d.span.start =
      ⟨p.line + 1, p.column + 1, d.span.start⟩ := by
    rw [Place.ofOffset, hstart]
  have hsnippet : (Finding.ofDiagnostic path (Lines.ofText source) d).snippet shown =
      markedLine (p.line + 1) shown p.column := by
    rw [Finding.ofDiagnostic, hplace]
    rfl
  have hline : (Finding.ofDiagnostic path (Lines.ofText source) d).start.line - 1 = p.line := by
    rw [Finding.ofDiagnostic, hplace]
    rfl
  rw [Finding.verbose, hline, h, Option.map_some, Option.getD_some, hsnippet, Diagnostic.block, hplace]
  simp only [Finding.human, Finding.ofDiagnostic, hplace, Place.shown, List.append_assoc]

lemma render_append_cons (path source : Text) (before after : List Diagnostic) (d : Diagnostic) :
    Format.humanVerbose.render path source (before ++ d :: after) =
      Format.humanVerbose.render path source before ++
        (Finding.ofDiagnostic path (Lines.ofText source) d).verbose (Lines.ofText source) source ++
        Format.humanVerbose.render path source after := by
  simp only [Format.render, findings_append, List.flatMap_append, List.flatMap_cons,
    List.append_assoc]

lemma exists_displayed (path : Text) (hs : Text.size source < Word.bound)
    (hd : (Project.diagnose source).1 = before ++ d :: after) : ∃ start front back shown,
      d.Displayed path source before after start front back shown (Text.size front) := by
  have hwithin := mem_diagnose_within hs (show d ∈ (Project.diagnose source).1 by simp [hd])
  have hle := hwithin.start_le_stop.trans hwithin.stop_le_size
  obtain ⟨p, hp, hat⟩ := Lines.exists_position? hs hle
  obtain ⟨front, back, hline, hcolumn⟩ := hat.exists_front hwithin.start_boundary
  have hposition : positionOrStart (Lines.ofText source) d.span.start = p := by
    rw [positionOrStart, hp, Option.getD_some]
  have htrimmed := Text.trimReturns_isTrimmed (front ++ back)
  have htext := Lines.text?_of_line hs hline htrimmed
  refine ⟨Place.ofOffset (Lines.ofText source) d.span.start, front, back, _,
    Place.ofOffset_isAt hs hle, rfl, ?_, ?_, htrimmed, ?_⟩
  · rw [Place.ofOffset, hposition]
    exact hline
  · rw [Place.ofOffset, hposition, hcolumn]
  · rw [← hposition] at htext
    rw [hcolumn, ← hposition, render_append_cons, verbose_ofDiagnostic htext]

/-- The text of a line is that of the source, and every diagnostic is shown with the line that it starts in. -/
theorem snippet_lines_exact (source : Text) (hs : Text.size source < Word.bound - 1) :
    (Lines.ofText source).HasTexts source ∧
    ∀ path before d after, (Project.diagnose source).1 = before ++ d :: after →
      ∃ start front back shown indent,
        d.Displayed path source before after start front back shown indent := by
  have hbound : Text.size source < Word.bound := by omega
  refine ⟨Lines.hasTexts hbound, fun path before d after hd => ?_⟩
  obtain ⟨start, front, back, shown, hdisplayed⟩ := exists_displayed path hbound hd
  exact ⟨start, front, back, shown, _, hdisplayed⟩

theorem snippet_lines_exact_returns :
    Text.size ['é', '\r', '\r', '\n', '<', '/'] < Word.bound - 1 ∧
    (∃ shown, Text.IsTrimmed ['é', '\r', '\r'] shown ∧
      (Lines.ofText ['é', '\r', '\r', '\n', '<', '/']).text? 0 ['é', '\r', '\r', '\n', '<', '/'] =
        some shown) ∧
    (Lines.ofText ['é', '\r', '\r', '\n', '<', '/']).text? 1 ['é', 'é', 'é'] = none ∧
    ∃ d : Diagnostic, (Project.diagnose ['é', '\r', '\r', '\n', '<', '/']).1 = [] ++ d :: [] ∧
      ∃ start front back shown indent,
        d.Displayed ['f'] ['é', '\r', '\r', '\n', '<', '/'] [] [] start front back shown indent := by
  have hd : (Project.diagnose ['é', '\r', '\r', '\n', '<', '/']).1 = [] ++ ⟨.error,
      "incomplete-closing-tag".toList, "Incomplete closing tag".toList, ⟨5, 7⟩⟩ :: [] := by
    decide +kernel
  obtain ⟨htexts, hdisplayed⟩ :=
    snippet_lines_exact ['é', '\r', '\r', '\n', '<', '/'] (by decide)
  refine ⟨by decide, htexts.text_eq 0 _ rfl, by decide, _, hd, hdisplayed ['f'] [] _ [] hd⟩

/-- The mark of a diagnostic stands behind as many blanks as there are bytes in the line before its start. So
it stands below the start just if each character before the start is one byte and is shown. -/
theorem caret_column_exact (path source : Text) (hs : Text.size source < Word.bound - 1)
    (before after : List Diagnostic) (d : Diagnostic)
    (hd : (Project.diagnose source).1 = before ++ d :: after) : ∃ start front back shown,
      d.Displayed path source before after start front back shown (Text.size front) ∧
        (Text.size front = (shown.take front.length).length ↔
          (∀ c ∈ front, c.utf8Size = 1) ∧ front <+: shown) := by
  obtain ⟨start, front, back, shown, hdisplayed⟩ := exists_displayed path (by omega) hd
  exact ⟨start, front, back, shown, hdisplayed, Text.size_eq_length_take_iff hdisplayed.trimmed⟩

theorem caret_column_exact_returns :
    Text.size ['<', 'a', ' ', 'b', '=', '\r'] < Word.bound - 1 ∧
    ∃ (d : Diagnostic) (after : List Diagnostic),
      (Project.diagnose ['<', 'a', ' ', 'b', '=', '\r']).1 = [] ++ d :: after ∧
      d.span = ⟨6, 6⟩ ∧ ∃ start front back shown,
        d.Displayed ['f'] ['<', 'a', ' ', 'b', '=', '\r'] [] after start front back shown
          (Text.size front) ∧
        (Text.size front = (shown.take front.length).length ↔
          (∀ c ∈ front, c.utf8Size = 1) ∧ front <+: shown) := by
  have hd : (Project.diagnose ['<', 'a', ' ', 'b', '=', '\r']).1 = [] ++ ⟨.error,
      "unrecognized-attribute-value".toList, "Unrecognized attribute value".toList, ⟨6, 6⟩⟩ ::
        [⟨.error, "invalid-tag-end".toList, "Invalid tag end".toList, ⟨0, 6⟩⟩,
          ⟨.error, "unmatched-opening-tag".toList, "Unmatched opening tag".toList, ⟨0, 6⟩⟩] := by
    decide +kernel
  exact ⟨by decide, _, _, hd, rfl, caret_column_exact ['f'] _ (by decide) [] _ _ hd⟩

/-- An accented letter before the start moves the mark too far: it stands behind two blanks, and one
character of the line is shown before the start. -/
theorem caret_misses_start_behind_accent :
    (Project.diagnose ['é', '<', '/']).1 = [⟨.error, "incomplete-closing-tag".toList,
      "Incomplete closing tag".toList, ⟨2, 4⟩⟩] ∧
    (⟨.error, "incomplete-closing-tag".toList, "Incomplete closing tag".toList, ⟨2, 4⟩⟩ :
      Diagnostic).Displayed ['f'] ['é', '<', '/'] [] [] ⟨1, 3, 2⟩ ['é'] ['<', '/'] ['é', '<', '/'] 2 ∧
    (['é', '<', '/'].take ['é'].length).length ≠ 2 := by
  refine ⟨by decide +kernel, ?_, by decide⟩
  constructor
  · exact ⟨by decide, by decide, rfl, _, rfl, by decide⟩
  · rfl
  · rfl
  · rfl
  · exact ⟨⟨0, rfl⟩, by decide⟩
  · decide +kernel

end Report

end TemplateMarkup

import TemplateMarkup.Project.CheckedFile
import TemplateMarkup.Proofs.Report.Lossless
import TemplateMarkup.Proofs.Template.Offsets

namespace TemplateMarkup.Report

open JsonText (Value Denotes)

structure Place.IsAt (source : Text) (p : Place) : Prop where
  line_pos : 1 ≤ p.line
  column_pos : 1 ≤ p.column
  position_isAt : Position.IsAt source p.offset ⟨p.line - 1, p.column - 1⟩

def Place.shown (p : Place) : Text :=
  Text.decimal p.line ++ [':'] ++ Text.decimal p.column

variable {path source : Text}

lemma Place.IsAt.unique {p q : Place} (hp : p.IsAt source) (hq : q.IsAt source)
    (h : p.offset = q.offset) : p = q := by
  obtain ⟨line, column, offset⟩ := p
  obtain ⟨line', column', offset'⟩ := q
  obtain rfl : offset = offset' := h
  obtain ⟨hline, hcolumn, hat⟩ := hp
  obtain ⟨hline', hcolumn', hat'⟩ := hq
  have hposition := hat.unique hat'
  simp only [Position.mk.injEq] at hposition
  simp only at hline hcolumn hline' hcolumn'
  obtain rfl : line = line' := by omega
  obtain rfl : column = column' := by omega
  rfl

lemma Place.ofOffset_isAt {offset : Nat} (hs : Text.size source < Word.bound)
    (h : offset ≤ Text.size source) : (Place.ofOffset (Lines.ofText source) offset).IsAt source := by
  obtain ⟨p, hp, hat⟩ := Lines.exists_position? hs h
  refine ⟨Nat.succ_pos _, Nat.succ_pos _, ?_⟩
  simpa only [ofOffset, positionOrStart, hp, Option.getD_some, Nat.add_sub_cancel] using hat

lemma mem_diagnose_within (hs : Text.size source < Word.bound) {d : Diagnostic}
    (hd : d ∈ (Project.diagnose source).1) : d.span.Within source := by
  obtain ⟨f, hf, rfl⟩ := List.mem_map.1 hd
  exact fault_within hs hf

/-- All forms of a report on some diagnostics, of which `d` is one, show the same places for `d`. -/
structure Shows (path source : Text) (before : List Diagnostic) (d : Diagnostic)
    (after : List Diagnostic) (start stop : Place) : Prop where
  human : ∃ more, Format.human.render path source (before ++ d :: after) =
    Format.human.render path source before ++ (path ++ [':'] ++ start.shown ++ ['\n'] ++ more) ++
      Format.human.render path source after
  humanVerbose : ∃ more, Format.humanVerbose.render path source (before ++ d :: after) =
    Format.humanVerbose.render path source before ++
      (path ++ [':'] ++ start.shown ++ ['\n'] ++ more) ++
      Format.humanVerbose.render path source after
  machine : ∃ more, Format.machine.render path source (before ++ d :: after) =
    Format.machine.render path source before ++ (d.severity.capitals ++ [' '] ++ path ++ [':'] ++
      start.shown ++ [':'] ++ stop.shown ++ [' '] ++ more) ++ Format.machine.render path source after
  json : ∃ objects : List Value,
    (∀ v, Denotes (Format.json.render path source (before ++ d :: after)) v ↔ v = .array objects) ∧
    ∃ f, objects[before.length]?.bind Value.finding? = some f ∧ f.start = start ∧ f.stop = stop

lemma findings_append (before after : List Diagnostic) (d : Diagnostic) :
    findings path source (before ++ d :: after) = findings path source before ++
      Finding.ofDiagnostic path (Lines.ofText source) d :: findings path source after := by
  rw [findings, List.map_append, List.map_cons]
  rfl

lemma shows_ofOffset (path source : Text) (before after : List Diagnostic) (d : Diagnostic) :
    Shows path source before d after (Place.ofOffset (Lines.ofText source) d.span.start)
      (Place.ofOffset (Lines.ofText source) d.span.stop) where
  human := by
    refine ⟨d.severity.label ++ [':', ' '] ++ d.message ++ [' ', '('] ++ d.code ++
      [')', '\n', '\n'], ?_⟩
    simp [Format.render, findings_append, Finding.human, Finding.ofDiagnostic, Place.shown]
  humanVerbose := by
    let f := Finding.ofDiagnostic path (Lines.ofText source) d
    let snippet := ((Lines.ofText source).text? (f.start.line - 1) source).map f.snippet
    refine ⟨d.severity.label ++ [':', ' '] ++ d.message ++ [' ', '('] ++ d.code ++ [')', '\n'] ++
      (snippet.getD [] ++ ['\n']), ?_⟩
    simp [Format.render, findings_append, Finding.verbose, Finding.human, Finding.ofDiagnostic,
      Place.shown, snippet, f]
  machine := by
    refine ⟨d.message ++ [' ', '('] ++ d.code ++ [')', '\n'], ?_⟩
    simp [Format.render, findings_append, Finding.machine, Finding.ofDiagnostic, Place.shown]
  json := by
    refine ⟨_, denotes_json_iff path source (before ++ d :: after),
      Finding.ofDiagnostic path (Lines.ofText source) d, ?_, rfl, rfl⟩
    have hlen : (findings path source before).length = before.length := List.length_map ..
    rw [findings_append, List.map_append, List.map_cons,
      List.getElem?_append_right (by rw [List.length_map, hlen]), List.length_map, hlen, Nat.sub_self,
      List.getElem?_cons_zero, Option.bind_some, Value.finding?_json]

/-- Every diagnostic of a source has places for its ends that lead to their offsets and to no others. All
forms of a report show them, and never fall back on the start of the source. -/
theorem positions_exact (path source : Text) (hs : Text.size source < Word.bound - 1)
    (before after : List Diagnostic) (d : Diagnostic)
    (hd : (Project.diagnose source).1 = before ++ d :: after) :
    ∃ start stop : Place, Shows path source before d after start stop ∧
      (start.IsAt source ∧ start.offset = d.span.start ∧ start.Fits) ∧
      (stop.IsAt source ∧ stop.offset = d.span.stop ∧ stop.Fits) ∧
      (∀ p, p.IsAt source → (p.offset = d.span.start → p = start) ∧
        (p.offset = d.span.stop → p = stop)) ∧
      (Lines.ofText source).position? d.span.start = some ⟨start.line - 1, start.column - 1⟩ ∧
      (Lines.ofText source).position? d.span.stop = some ⟨stop.line - 1, stop.column - 1⟩ := by
  have hbound : Text.size source < Word.bound := by omega
  have hwithin := mem_diagnose_within hbound (show d ∈ (Project.diagnose source).1 by simp [hd])
  have hstop := hwithin.stop_le_size
  have hstart := hwithin.start_le_stop.trans hstop
  have hatstart := Place.ofOffset_isAt hbound hstart
  have hatstop := Place.ofOffset_isAt hbound hstop
  refine ⟨_, _, shows_ofOffset path source before after d,
    ⟨hatstart, rfl, Place.ofOffset_fits hs (by omega)⟩,
    ⟨hatstop, rfl, Place.ofOffset_fits hs (by omega)⟩,
    fun p hp => ⟨hp.unique hatstart, hp.unique hatstop⟩, ?_, ?_⟩
  · exact (Lines.position?_eq_some_iff hbound).2 hatstart.position_isAt
  · exact (Lines.position?_eq_some_iff hbound).2 hatstop.position_isAt

theorem positions_exact_second_line :
    Text.size ['é', '\r', '\n', ' ', '<', '/'] < Word.bound - 1 ∧
    ∃ d : Diagnostic, (Project.diagnose ['é', '\r', '\n', ' ', '<', '/']).1 = [] ++ d :: [] ∧
      Shows ['f'] ['é', '\r', '\n', ' ', '<', '/'] [] d [] ⟨2, 2, 5⟩ ⟨2, 4, 7⟩ := by
  have hd : (Project.diagnose ['é', '\r', '\n', ' ', '<', '/']).1 = [] ++ ⟨.error,
      "incomplete-closing-tag".toList, "Incomplete closing tag".toList, ⟨5, 7⟩⟩ :: [] := by
    decide +kernel
  obtain ⟨start, stop, hshows, -, -, hunique, -⟩ := positions_exact ['f'] _ (by decide) _ _ _ hd
  have hstart := (hunique ⟨2, 2, 5⟩ ⟨by decide, by decide, by decide, _, rfl, by decide⟩).1 rfl
  have hstop := (hunique ⟨2, 4, 7⟩ ⟨by decide, by decide, by decide, _, rfl, by decide⟩).2 rfl
  rw [← hstart, ← hstop] at hshows
  exact ⟨by decide, _, hd, hshows⟩

end TemplateMarkup.Report

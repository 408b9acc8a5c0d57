import TemplateMarkup.Proofs.Report.JsonPrinting
import TemplateMarkup.Proofs.Source.Lines
import TemplateMarkup.Report.Format

namespace TemplateMarkup.Report

namespace JsonText.Value

def field? (key : Text) : Value → Option Value
  | object fields =>
    match fields.filter (·.1 == key) with
    | [(_, value)] => some value
    | _ => none
  | _ => none

def text? : Value → Option Text
  | string text => some text
  | _ => none

def natural? : Value → Option Nat
  | number q => if q = q.num.toNat then some q.num.toNat else none
  | _ => none

def place? (v : Value) : Option Place := do
  let line ← (v.field? "line".toList).bind natural?
  let column ← (v.field? "column".toList).bind natural?
  let offset ← (v.field? "offset".toList).bind natural?
  some ⟨line, column, offset⟩

def severity? (v : Value) : Option Severity := do
  let label ← v.text?
  if label = Severity.error.label then some .error else none

def finding? (v : Value) : Option Finding := do
  let severity ← (v.field? "type".toList).bind severity?
  let path ← (v.field? "filename".toList).bind text?
  let start ← (v.field? "start".toList).bind place?
  let stop ← (v.field? "end".toList).bind place?
  let message ← (v.field? "message".toList).bind text?
  let code ← (v.field? "code".toList).bind text?
  let source ← (v.field? "source".toList).bind text?
  if source = origin then some ⟨severity, path, start, stop, message, code⟩ else none

@[simp] lemma natural?_number (n : Nat) : (number n).natural? = some n := by
  simp [natural?]

lemma place?_json (p : Place) : p.json.value.place? = some p := by
  simp [Place.json, Json.value, Json.fieldValues, place?, field?]

lemma finding?_json (f : Finding) : f.json.value.finding? = some f := by
  have hseverity : severity? (.string f.severity.label) = some f.severity := by
    cases f.severity
    rfl
  simp [Finding.json, Json.value, Json.fieldValues, finding?, field?, text?, hseverity, place?_json]

end JsonText.Value

open JsonText (Value Denotes)

structure Place.Fits (p : Place) : Prop where
  line_lt : p.line < Word.bound
  column_lt : p.column < Word.bound
  offset_lt : p.offset < Word.bound

variable {path source : Text}

lemma Place.ofOffset_fits {offset : Nat} (hs : Text.size source < Word.bound - 1)
    (ho : offset < Word.bound) : (Place.ofOffset (Lines.ofText source) offset).Fits := by
  have hposition : (positionOrStart (Lines.ofText source) offset).line ≤ Text.size source ∧
      (positionOrStart (Lines.ofText source) offset).column ≤ Text.size source := by
    rw [positionOrStart]
    cases hp : (Lines.ofText source).position? offset with
    | none => exact ⟨Nat.zero_le _, Nat.zero_le _⟩
    | some p =>
      have hat := (Lines.position?_eq_some_iff (by omega)).1 hp
      exact ⟨hat.line_le_size, hat.le_size.1⟩
  refine ⟨?_, ?_, ho⟩
  · show _ + 1 < _
    omega
  · show _ + 1 < _
    omega

lemma jsonList_value (found : List Finding) :
    (Json.list (found.map Finding.json)).value = .array (found.map fun f => f.json.value) := by
  rw [Json.value, Json.values_eq_map, List.map_map]
  rfl

lemma denotes_jsonList_iff (found : List Finding) {cs : Text} (hcs : JsonText.skip cs = [])
    (v : Value) : Denotes (jsonList found ++ cs) v ↔ v = .array (found.map fun f => f.json.value) := by
  rw [jsonList, Json.denotes_render_iff _ hcs, jsonList_value]

lemma denotes_json_iff (path source : Text) (ds : List Diagnostic) (v : Value) :
    Denotes (Format.json.render path source ds) v ↔
      v = .array ((findings path source ds).map fun f => f.json.value) := by
  have hdenotes := @denotes_jsonList_iff (findings path source ds) [] rfl v
  rwa [List.append_nil] at hdenotes

lemma map_finding?_json (found : List Finding) :
    (found.map fun f => f.json.value).map Value.finding? = found.map some := by
  rw [List.map_map]
  exact List.map_congr_left fun f _ => Value.finding?_json f

/-- The written report is a JSON text for a list of objects, and for nothing else. The objects tell of the
diagnostics in order, with all their fields, and their numbers are words. -/
theorem json_report_lossless (path source : Text) (ds : List Diagnostic)
    (hs : Text.size source < Word.bound - 1)
    (hd : ∀ d ∈ ds, d.span.start < Word.bound ∧ d.span.stop < Word.bound) :
    ∃ objects : List Value,
      (∀ v, Denotes (Format.json.render path source ds) v ↔ v = .array objects) ∧
      objects.map Value.finding? =
        ds.map (fun d => some (Finding.ofDiagnostic path (Lines.ofText source) d)) ∧
      ∀ f ∈ findings path source ds, f.start.Fits ∧ f.stop.Fits := by
  refine ⟨(findings path source ds).map fun f => f.json.value, denotes_json_iff path source ds, ?_, ?_⟩
  · rw [map_finding?_json, findings, List.map_map]
    rfl
  · intro f hf
    obtain ⟨d, hmem, rfl⟩ := List.mem_map.1 hf
    exact ⟨Place.ofOffset_fits hs (hd d hmem).1, Place.ofOffset_fits hs (hd d hmem).2⟩

theorem json_report_lossless_escapes :
    Text.size ['<'] < Word.bound - 1 ∧
    (∀ d ∈ [(⟨.error, ['c'], ['"', '\\', '\n', '\x01', 'é'], ⟨1, 9⟩⟩ : Diagnostic)],
      d.span.start < Word.bound ∧ d.span.stop < Word.bound) ∧
    ∃ objects : List Value,
      (∀ v, Denotes (Format.json.render ['\t', '/'] ['<']
        [⟨.error, ['c'], ['"', '\\', '\n', '\x01', 'é'], ⟨1, 9⟩⟩]) v ↔ v = .array objects) ∧
      objects.map Value.finding? = [some ⟨.error, ['\t', '/'], ⟨1, 2, 1⟩, ⟨1, 1, 9⟩,
        ['"', '\\', '\n', '\x01', 'é'], ['c']⟩] := by
  have hd : ∀ d ∈ [(⟨.error, ['c'], ['"', '\\', '\n', '\x01', 'é'], ⟨1, 9⟩⟩ : Diagnostic)],
      d.span.start < Word.bound ∧ d.span.stop < Word.bound := by decide
  obtain ⟨objects, hdenotes, hfound, -⟩ :=
    json_report_lossless ['\t', '/'] ['<'] [⟨.error, ['c'], ['"', '\\', '\n', '\x01', 'é'], ⟨1, 9⟩⟩]
      (by decide) hd
  exact ⟨by decide, hd, objects, hdenotes, hfound⟩

end TemplateMarkup.Report

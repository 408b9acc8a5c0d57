import TemplateMarkup.Markup.Fault
import TemplateMarkup.Source.Lines

/-! Lines and columns are shown counted from one, and a column counts bytes. An offset past the end of the
source is shown at the start of the first line. -/

namespace TemplateMarkup.Report

inductive Severity where
  | error
deriving DecidableEq, Repr

namespace Severity

def label : Severity → Text
  | error => "Error".toList

def capitals (s : Severity) : Text :=
  s.label.map Char.toUpper

end Severity

structure Diagnostic where
  severity : Severity
  code : Text
  message : Text
  span : Span
deriving DecidableEq, Repr

def Diagnostic.ofFault (fault : Markup.Fault) : Diagnostic :=
  ⟨.error, fault.kind.code, fault.kind.message, fault.span⟩

structure Place where
  line : Nat
  column : Nat
  offset : Nat
deriving DecidableEq, Repr

def positionOrStart (lines : Lines) (offset : Nat) : Position :=
  (lines.position? offset).getD ⟨0, 0⟩

def Place.ofOffset (lines : Lines) (offset : Nat) : Place :=
  let position := positionOrStart lines offset
  ⟨position.line + 1, position.column + 1, offset⟩

structure Finding where
  severity : Severity
  path : Text
  start : Place
  stop : Place
  message : Text
  code : Text
deriving DecidableEq, Repr

def Finding.ofDiagnostic (path : Text) (lines : Lines) (d : Diagnostic) : Finding :=
  { severity := d.severity, path := path, start := Place.ofOffset lines d.span.start
    stop := Place.ofOffset lines d.span.stop, message := d.message, code := d.code }

def findings (path source : Text) (diagnostics : List Diagnostic) : List Finding :=
  diagnostics.map (Finding.ofDiagnostic path (Lines.ofText source))

end TemplateMarkup.Report

import TemplateMarkup.Project.Discovery
import TemplateMarkup.Report.Format
import TemplateMarkup.Template.Builder

/-! A file that is not UTF-8 cannot be read, and nothing is said about it. -/

namespace TemplateMarkup.Project

open Report (Diagnostic Format)

def diagnose (source : Text) : List Diagnostic × Markup.Stats :=
  let template := parse source
  (template.faults.map Diagnostic.ofFault, template.stats)

structure CheckedFile where
  file : TemplateFile
  source : Text
  diagnostics : List Diagnostic
  stats : Markup.Stats

def CheckedFile.ofFile (file : TemplateFile) : Option CheckedFile :=
  (String.fromUTF8? file.bytes).map fun content =>
    let source := content.toList
    let (diagnostics, stats) := diagnose source
    ⟨file, source, diagnostics, stats⟩

def checkAll (found : List TemplateFile) : List CheckedFile :=
  found.filterMap CheckedFile.ofFile

def CheckedFile.findings (r : CheckedFile) : List Report.Finding :=
  Report.findings r.file.displayPath r.source r.diagnostics

def CheckedFile.render (format : Format) (r : CheckedFile) : Text :=
  format.render r.file.displayPath r.source r.diagnostics

end TemplateMarkup.Project

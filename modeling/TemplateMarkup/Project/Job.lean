import TemplateMarkup.Project.CheckedFile

namespace TemplateMarkup.Project

open Report (Format Summary)

structure Job where
  paths : List Text
  ignore : List Text
  suffix : Text
  format : Format
deriving Repr

structure Outcome where
  output : Text
  summary : Summary
deriving Repr

def summarize (found : List TemplateFile) (checked : List CheckedFile) : Summary :=
  { files := found.length
    errors := checked.foldr (fun file n => file.diagnostics.length + n) 0
    nodes := checked.foldr (fun file n => file.stats.total + n) 0 }

def render (format : Format) (checked : List CheckedFile) (summary : Summary) : Text :=
  match format with
  | .json => Report.jsonList (checked.flatMap CheckedFile.findings) ++ ['\n']
  | _ => checked.flatMap (CheckedFile.render format) ++ summary.text ++ ['\n']

def Job.run (job : Job) (top : Text → Option FileTree) : Except CheckFailure Outcome :=
  match Glob.IgnoreSet.ofPatterns job.ignore with
  | .error cause => .error (.invalidPattern cause)
  | .ok ignored =>
    match templatesAtAll top job.suffix ignored job.paths with
    | .error e => .error e
    | .ok found =>
      let checked := checkAll found
      let summary := summarize found checked
      .ok ⟨render job.format checked summary, summary⟩

end TemplateMarkup.Project

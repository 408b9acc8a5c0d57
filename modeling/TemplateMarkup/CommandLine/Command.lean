import TemplateMarkup.CommandLine.Arguments
import TemplateMarkup.Project.Job

/-! The code is 0 when nothing is wrong, 1 when there are errors or nothing could be checked, and 2 when the
command line is not understood. -/

namespace TemplateMarkup.CommandLine

structure Result where
  exitCode : Nat
  output : Text
  stats : Option Text
  complaint : Option Text
deriving Repr

def versionLine : Text :=
  "ng-template-check 0.3.0\n".toList

def usage : Text :=
  "Usage: ng-template-check [OPTIONS] [PATHS]...\n".toList

def Result.ofRefusal : Refusal → Result
  | .helpAsked => ⟨0, usage, none, none⟩
  | .versionAsked => ⟨0, versionLine, none, none⟩
  | _ => ⟨2, [], none, some usage⟩

def Options.job (o : Options) : Project.Job :=
  ⟨o.paths, o.ignore, o.suffix, o.output⟩

def Options.run (o : Options) (top : Text → Option Project.FileTree) : Result :=
  match o.job.run top with
  | .error e => ⟨1, [], none, some (e.message ++ ['\n'])⟩
  | .ok outcome =>
    ⟨if outcome.summary.errors = 0 then 0 else 1, outcome.output,
      if o.stats then some outcome.summary.statsLine else none, none⟩

def command (top : Text → Option Project.FileTree) (arguments : List Text) : Result :=
  match Options.ofArguments arguments with
  | .error refusal => Result.ofRefusal refusal
  | .ok options => options.run top

end TemplateMarkup.CommandLine

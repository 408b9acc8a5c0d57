import TemplateMarkup.Report.Finding
import TemplateMarkup.Report.Json

namespace TemplateMarkup.Report

inductive Format where
  | human
  | humanVerbose
  | json
  | machine
deriving DecidableEq, Repr

def origin : Text :=
  "ng-template".toList

namespace Finding

def human (f : Finding) : Text :=
  f.path ++ [':'] ++ Text.decimal f.start.line ++ [':'] ++ Text.decimal f.start.column ++ ['\n'] ++
    f.severity.label ++ [':', ' '] ++ f.message ++ [' ', '('] ++ f.code ++ [')', '\n']

/-- The line that a finding starts in, with a mark below the column where it starts. The mark is
moved by a space for every byte before it. -/
def snippet (f : Finding) (line : Text) : Text :=
  let number := Text.decimal f.start.line
  [' ', ' '] ++ number ++ [' ', '|', ' '] ++ line ++ ['\n'] ++
    [' ', ' '] ++ List.replicate number.length ' ' ++ [' ', '|', ' '] ++
    List.replicate (f.start.column - 1) ' ' ++ ['^', '\n']

def machine (f : Finding) : Text :=
  f.severity.capitals ++ [' '] ++ f.path ++ [':'] ++
    Text.decimal f.start.line ++ [':'] ++ Text.decimal f.start.column ++ [':'] ++
    Text.decimal f.stop.line ++ [':'] ++ Text.decimal f.stop.column ++ [' '] ++
    f.message ++ [' ', '('] ++ f.code ++ [')', '\n']

end Finding

def Place.json (p : Place) : Json :=
  .record [("line".toList, .number p.line), ("column".toList, .number p.column),
    ("offset".toList, .number p.offset)]

def Finding.json (f : Finding) : Json :=
  .record [("type".toList, .string f.severity.label), ("filename".toList, .string f.path),
    ("start".toList, f.start.json), ("end".toList, f.stop.json),
    ("message".toList, .string f.message), ("code".toList, .string f.code),
    ("source".toList, .string origin)]

def jsonList (found : List Finding) : Text :=
  (Json.list (found.map Finding.json)).render

def Finding.verbose (lines : Lines) (source : Text) (f : Finding) : Text :=
  f.human ++ ((lines.text? (f.start.line - 1) source).map f.snippet).getD [] ++ ['\n']

def Format.render (format : Format) (path source : Text) (diagnostics : List Diagnostic) : Text :=
  let found := findings path source diagnostics
  match format with
  | human => found.flatMap fun f => f.human ++ ['\n']
  | humanVerbose => found.flatMap (Finding.verbose (Lines.ofText source) source)
  | json => jsonList found
  | machine => found.flatMap Finding.machine

structure Summary where
  files : Nat
  errors : Nat
  nodes : Nat
deriving DecidableEq, Repr

def counted (n : Nat) (one many : Text) : Text :=
  Text.decimal n ++ [' '] ++ if n = 1 then one else many

namespace Summary

def text (s : Summary) : Text :=
  List.replicate 36 '=' ++ "\nng-template-check found ".toList ++
    counted s.errors "error".toList "errors".toList ++ " in ".toList ++
    counted s.files "file".toList "files".toList

def statsLine (s : Summary) : Text :=
  "scanned ".toList ++ Text.decimal s.nodes ++ " nodes in ".toList ++ Text.decimal s.files ++
    " files".toList

end Summary

end TemplateMarkup.Report

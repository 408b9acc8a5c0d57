import TemplateMarkup.Report.Format

/-! Reading command lines. The value of an option is looked at when the next option or path comes, so an
argument that is unknown is refused before a bad value that stands further left. -/

namespace TemplateMarkup.CommandLine

open Report (Format)

structure Options where
  paths : List Text
  output : Format
  ignore : List Text
  extension : Text
  stats : Bool
  -- Asks for a log of nodes, which is no part of what a check writes.
  traceNodes : Bool
deriving DecidableEq, Repr

def Options.suffix (o : Options) : Text :=
  '.' :: o.extension.dropWhile (· == '.')

def formatNamed? (name : Text) : Option Format :=
  if name = "human".toList then some .human
  else if name = "human-verbose".toList then some .humanVerbose
  else if name = "json".toList then some .json
  else if name = "machine".toList then some .machine
  else none

inductive Refusal where
  | invalidValue
  | argumentConflict
  | tooManyValues
  | unknownArgument
  | helpAsked
  | versionAsked
deriving DecidableEq, Repr

inductive Valued where
  | output
  | ignore
  | extension
deriving DecidableEq, Repr

inductive Switch where
  | stats
  | traceNodes
  | help
  | version
deriving DecidableEq, Repr

inductive Named where
  | valued (option : Valued)
  | switch (option : Switch)
  | unknown
deriving DecidableEq, Repr

def named (name : Text) : Named :=
  if name = "output".toList then .valued .output
  else if name = "ignore".toList then .valued .ignore
  else if name = "extension".toList then .valued .extension
  else if name = "stats".toList then .switch .stats
  else if name = "trace-nodes".toList then .switch .traceNodes
  else if name = "help".toList then .switch .help
  else if name = "version".toList then .switch .version
  else .unknown

def lettered (letter : Char) : Named :=
  if letter = 'h' then .switch .help
  else if letter = 'V' then .switch .version
  else .unknown

inductive Argument where
  | separator
  | long (name : Text) (value : Option Text)
  | short (letter : Char)
  | plain (text : Text)
deriving DecidableEq, Repr

def Argument.ofText : Text → Argument
  | ['-', '-'] => separator
  | '-' :: '-' :: rest =>
    match rest.dropWhile (· != '=') with
    | [] => long rest none
    | _ :: value => long (rest.takeWhile (· != '=')) (some value)
  | '-' :: letter :: _ => short letter
  | text => plain text

/-- What was read of a command line. Paths and patterns are last first. An option is pending from
where it was named until its value is looked at. -/
structure Draft where
  paths : List Text
  output : Option Report.Format
  ignore : List Text
  extension : Option Text
  stats : Bool
  traceNodes : Bool
  pending : Option (Valued × Option Text)
deriving Repr

namespace Draft

def start : Draft :=
  ⟨[], none, [], none, false, false, none⟩

def set (d : Draft) (option : Valued) (value : Text) : Except Refusal Draft :=
  match option with
  | .ignore => .ok { d with ignore := value :: d.ignore }
  | .extension =>
    if d.extension.isSome then .error .argumentConflict else .ok { d with extension := some value }
  | .output =>
    if d.output.isSome then .error .argumentConflict
    else
      match formatNamed? value with
      | none => .error .invalidValue
      | some format => .ok { d with output := some format }

def settle (d : Draft) : Except Refusal Draft :=
  match d.pending with
  | none => .ok d
  | some (_, none) => .error .invalidValue
  | some (option, some value) => { d with pending := none }.set option value

def turnOn (d : Draft) (option : Switch) : Except Refusal Draft :=
  match option with
  | .help => .error .helpAsked
  | .version => .error .versionAsked
  | .stats => if d.stats then .error .argumentConflict else .ok { d with stats := true }
  | .traceNodes =>
    if d.traceNodes then .error .argumentConflict else .ok { d with traceNodes := true }

def addOption (d : Draft) (option : Named) (value : Option Text) : Except Refusal Draft :=
  match option, value with
  | .unknown, _ => .error .unknownArgument
  | .switch _, some _ => .error .tooManyValues
  | .switch s, none => do (← d.settle).turnOn s
  | .valued v, some value => do (← d.settle).set v value
  | .valued v, none => do return { (← d.settle) with pending := some (v, none) }

def addPath (d : Draft) (path : Text) : Except Refusal Draft := do
  let d ← d.settle
  return { d with paths := path :: d.paths }

def addPlain (d : Draft) (text : Text) : Except Refusal Draft :=
  match d.pending with
  | some (option, none) => .ok { d with pending := some (option, some text) }
  | _ => d.addPath text

def addPaths (d : Draft) : List Text → Except Refusal Draft
  | [] => .ok d
  | path :: others => do (← d.addPath path).addPaths others

def addAll (d : Draft) : List Text → Except Refusal Draft
  | [] => .ok d
  | argument :: others =>
    match Argument.ofText argument with
    | .separator => d.addPaths others
    | .long name value => do (← d.addOption (named name) value).addAll others
    | .short letter => do (← d.addOption (lettered letter) none).addAll others
    | .plain text => do (← d.addPlain text).addAll others

def options (d : Draft) : Options :=
  { paths := if d.paths.isEmpty then [['.']] else d.paths.reverse
    output := d.output.getD .human
    ignore := d.ignore.reverse
    extension := d.extension.getD "html".toList
    stats := d.stats
    traceNodes := d.traceNodes }

end Draft

def Options.ofArguments (arguments : List Text) : Except Refusal Options := do
  let d ← Draft.start.addAll arguments
  return (← d.settle).options

end TemplateMarkup.CommandLine

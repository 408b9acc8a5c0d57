import TemplateMarkup.CommandLine.Command

namespace TemplateMarkup.Main

open Project (FileTree)

/-- Stands for the content of a file that cannot be read, as these bytes are no text. -/
def unreadable : ByteArray :=
  ⟨#[0xFF]⟩

def readFile (path : String) : IO ByteArray := do
  try IO.FS.readBinFile path catch _ => return unreadable

partial def readDirectory (suffix : Text) (path : String) : IO FileTree := do
  let found ← try (System.mkFilePath [path]).readDir catch _ => pure #[]
  let mut entries := []
  for entry in found do
    let name := entry.fileName.toList
    let below := String.ofList (Project.Path.join path.toList name)
    match (← entry.path.symlinkMetadata).type with
    | .dir => entries := (name, ← readDirectory suffix below) :: entries
    | .file =>
      let bytes ← if suffix.isSuffixOf name then readFile below else pure unreadable
      entries := (name, .file bytes) :: entries
    | _ => pure ()
  return .directory entries

def readPath (suffix : Text) (path : Text) : IO (Option FileTree) := do
  let name := String.ofList path
  try
    match (← (System.mkFilePath [name]).metadata).type with
    | .dir => return some (← readDirectory suffix name)
    | .file => return some (.file (← readFile name))
    | _ => return none
  catch _ => return none

def readPaths (options : CommandLine.Options) : IO (List (Text × FileTree)) := do
  let mut trees := []
  for path in options.paths do
    if let some tree ← readPath options.suffix path then
      trees := (path, tree) :: trees
  return trees

end TemplateMarkup.Main

def main (arguments : List String) : IO UInt32 := do
  let begun ← IO.monoMsNow
  let arguments := arguments.map String.toList
  let trees ← match TemplateMarkup.CommandLine.Options.ofArguments arguments with
    | .ok options => TemplateMarkup.Main.readPaths options
    | .error _ => pure []
  let result := TemplateMarkup.CommandLine.command (List.lookup · trees) arguments
  if let some line := result.stats then
    let elapsed := (← IO.monoMsNow) - begun
    IO.eprintln (String.ofList line ++ " (" ++ toString elapsed ++ "ms)")
  if let some complaint := result.complaint then
    IO.eprint (String.ofList complaint)
  IO.print (String.ofList result.output)
  return result.exitCode.toUInt32

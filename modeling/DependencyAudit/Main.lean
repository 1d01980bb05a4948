import DependencyAudit.CommandLine.Run

namespace DependencyAudit.Main

open FileSystem CommandLine

attribute [local instance] Platform.standard

/-- The place of a path from the root. -/
def placeOf (path : String) : Place := Disk.lexicalPlace [] (Path.ofString path).names

/-- Whether an audit may need the content of the file at a path. -/
def isNeeded (path : Path) : Bool :=
  path.suffix ∈ Scan.sourceSuffixes || path.name == Manifest.fileName ||
    path.name == Settings.fileName

/-- Where a path leads in the end, or the path itself where it leads nowhere. -/
def leadsTo (path : String) : IO String :=
  try return (← IO.FS.realPath path).toString catch _ => return path

/-- A directory of the disk and what is below it. Installed packages are passed over, and a link is
taken to lead where it leads in the end. -/
partial def nodesBelow (directory : String) : IO (List (Place × DiskNode)) := do
  let mut nodes := [(placeOf directory, .directory)]
  for entry in ← (← IO.FS.realPath directory).readDir do
    let path := entry.path.toString
    match (← entry.path.symlinkMetadata).type with
    | .dir =>
      if entry.fileName = Scan.packageCache then nodes := (placeOf path, .directory) :: nodes
      else nodes := (← nodesBelow path) ++ nodes
    | .file =>
      let bytes ← if isNeeded (.ofString path) then IO.FS.readBinFile path else pure .empty
      nodes := (placeOf path, .file (.raw bytes.toList)) :: nodes
    | .symlink =>
      nodes := (placeOf path, .link (← leadsTo path)) :: nodes
    | .other => pure ()
  return nodes

/-- The directory at a place, if there is one. -/
def directoryAt (place : Place) : IO (List (Place × DiskNode)) := do
  try
    let there ← (← IO.FS.realPath (Disk.pathOf place).toText).isDir
    return if there then [(place, .directory)] else []
  catch _ => return []

/-- What the disk holds of a project: all of it, with the directory to which a document goes. -/
def diskFor (o : Options) : IO Disk := do
  let here := placeOf (← IO.currentDir).toString
  let path := projectPath o
  let named := Disk.lexicalPlace (Disk.origin here path) path.names
  let project ← leadsTo (Disk.pathOf named).toText
  let below ← try nodesBelow project catch _ => pure []
  let link := if placeOf project = named then [] else [(named, .link project)]
  let output := Path.ofString (o.output.getD "")
  let target := Disk.lexicalPlace (Disk.origin here output) output.names
  return ⟨below ++ link ++ (← directoryAt target) ++ (← directoryAt target.dropLast), here⟩

/-- Finds no program. -/
def noPrograms : Removal.Runner := fun command _ =>
  .error (.removal (.programNotFound (Text.ofEscaped (command.headD "").points)))

/-- Does what a transcript says. -/
def perform : Event → IO Unit
  | .printed .output text => IO.print text
  | .printed .error text => IO.eprint text
  | .wrote path text => IO.FS.writeFile path.toText text
  | _ => return ()

/-- Runs the program from the event on that comes after those that are done. -/
partial def converse (world : World) (arguments : List String) (done : Nat) : IO Nat := do
  let outcome := CommandLine.run world arguments
  let events := outcome.transcript.drop done
  if outcome.wantsAnswer then
    events.dropLast.forM perform
    (← IO.getStdout).flush
    let line ← (← IO.getStdin).getLine
    if line = "" then
      perform abortNotice
      return outcome.status
    else
      let answered := { world with input := world.input ++ line }
      converse answered arguments (outcome.transcript.length - 1)
  else
    events.forM perform
    if let some failure := outcome.escaped then IO.eprintln failure.message
    return outcome.status

end DependencyAudit.Main

/-- Audits the project that the arguments name. -/
def main (arguments : List String) : IO UInt32 := do
  match DependencyAudit.CommandLine.Options.read? arguments with
  | none => return 2
  | some o =>
    let world := ⟨← DependencyAudit.Main.diskFor o, "", DependencyAudit.Main.noPrograms⟩
    return UInt32.ofNat (← DependencyAudit.Main.converse world arguments 0)

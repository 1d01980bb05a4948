import DependencyAudit.CommandLine.Options
import DependencyAudit.FileSystem.RealPath
import DependencyAudit.Removal.Dialogue
import DependencyAudit.Report.Document
import DependencyAudit.Report.Summary
import DependencyAudit.Settings
import DependencyAudit.Text.Pieces

namespace DependencyAudit.CommandLine

open Conversation FileSystem

/-- What a run is given besides its arguments. -/
structure World where
  disk : Disk
  input : String
  runner : Removal.Runner

/-- The width of the consoles of a run. -/
def consoleWidth : Nat := 80

/-- A console of a run. -/
def console (stream : Stream) : Console := ⟨consoleWidth, stream, .bareLines⟩

/-- Where a run tells what it is doing: apart from the document where one is printed. -/
def statusConsole (o : Options) : Console := console (if o.json then .error else .output)

def versionLine : String := "depcheck-lite version 0.1.0"

/-- The path of the project: the first argument that is no option, or the current directory. -/
def projectPath (o : Options) : Path := .ofString (o.positional.head?.getD ".")

section

variable [Platform]

/-- The analyzer that the options and the settings ask for. -/
def analyzerOf (view : View) (o : Options) (settings : Settings) (project : Path) :
    Except Failure Analyzer := do
  let ignore ← settings.ignore.mapError .configuration
  let directories ←
    match Settings.splitDirectories o.directories with
    | none => settings.directories.mapError .configuration
    | some directories => .ok directories
  let exclusions ← settings.exclusions.mapError .configuration
  let excluder ← (Exclusion.Excluder.ofLines project exclusions o.exclude).mapError .pattern
  Analyzer.load view project (ignore ++ o.ignore.map Name.ofString) directories excluder

/-- Writes a result stroke by stroke to the file that the options name, if they do. -/
def save (disk : Disk) (o : Options) (result : Result) : Conversation Disk := do
  match o.output with
  | none => return disk
  | some file =>
    let path := Path.ofString file
    let text := String.ofList (Report.strokes result).flatten
    let written ← ofExcept .access (disk.write path text)
    note (.wrote path text)
    return written

/-- Prints a result: the document, or the report for people. -/
def present (o : Options) (result : Result) (statistics : Statistics) : Conversation Unit := do
  if o.json then note (.printed .output (Report.document result ++ "\n"))
  else
    if o.verbose then
      let summary ← ofExcept .markup (Report.summary consoleWidth result statistics)
      note (.printed .output summary)
    (Report.listing result).forM (tell (console .output))
    match o.output with
    | none => return ()
    | some file =>
      say (console .output) s!"\n[green]Results saved to:[/] {Path.ofString file}"

/-- The package manager for removals: the one that the options name, the one that the settings name,
or the one whose lock file is there. -/
def managerOf (disk : Disk) (o : Options) (settings : Settings) (project : Path) :
    Except Failure Removal.Manager :=
  match o.manager with
  | some name => .ok (.ofName name)
  | none => do
    match ← settings.manager?.mapError .configuration with
    | some manager => return manager
    | none => (Removal.Manager.detect disk.view project).mapError .access

/-- Lets unused packages be removed where the options ask for it. Gives those that are left. -/
def offerRemoval (world : World) (disk : Disk) (o : Options) (settings : Settings) (project : Path)
    (unused : List Name) : Conversation (List Name) := do
  if o.interactive ∧ unused ≠ [] then
    let manager ← ofExcept id (managerOf disk o settings project)
    let outcome ← Removal.dialogue (statusConsole o) world.runner project manager unused
    return unused.filter (· ∉ outcome.removed)
  else return unused

/-- Audits a project. Gives the status. -/
def audit (world : World) (o : Options) (project : Path) : Conversation Nat := do
  let settings ← ofExcept id (Settings.load world.disk project)
  if o.verbose ∧ settings.members ≠ [] then
    say (statusConsole o) s!"[dim]Using config:[/] {Settings.pathIn project}"
  let view := world.disk.view
  let analyzer ← ofExcept id (analyzerOf view o settings project)
  (Analyzer.filesRead view (analyzer.scan view).found.files).forM fun path => note (.opened path)
  let (result, statistics) ← ofExcept id (analyzer.analyze view)
  let disk ← save world.disk o result
  present o result statistics
  let left ← offerRemoval world disk o settings project result.unused
  return if left = [] then 0 else 1

/-- Whether the file for the document has a name that no file can have. -/
def hasNulOutput (o : Options) : Bool := (o.output.getD "").toList.contains '\x00'

/-- Checks what can be told from the arguments alone. Gives the path of the project. -/
def prepare (world : World) (o : Options) : Conversation Path := do
  let path := projectPath o
  if Disk.hasNul path ∨ hasNulOutput o then fail .nulCharacter
  if 1 < o.positional.length then throw (.finished 2)
  let project ← ofExcept .linkLoop (world.disk.realPath path)
  match o.manager with
  | none => return project
  | some name =>
    if (Removal.Manager.ofName? name).isNone then
      say (console .error)
        s!"[red]Error:[/] --package-manager must be one of {Removal.Manager.knownNames}"
      throw (.finished 1)
    return project

/-- Meets a request. -/
def answer (o : Options) : Request → Conversation Nat
  | .version => do
    say (console .output) versionLine
    return 0
  | .help => do
    note (.printed .output Platform.help)
    return 0
  | .completion kind => do
    if o.outputFirst ∧ hasNulOutput o then fail .nulCharacter
    let response := Platform.completion kind
    note (.printed .output response.output)
    note (.printed .error response.error)
    return if response.failed then 1 else 0

/-- Does what the options ask for. -/
def perform (world : World) (o : Options) : Conversation Nat := do
  match o.request? with
  | some request => answer o request
  | none =>
    let project ← prepare world o
    audit world o project

end

/-- The outcome of a run. -/
structure Outcome where
  status : Nat
  transcript : List Event
  /-- The failure that has ended the run without a report of its own. -/
  escaped : Option Failure
  deriving DecidableEq, Repr

/-- Reports a failure. -/
def report [Platform] (failure : Failure) : Conversation Nat := do
  say (console .error) s!"[red]Error:[/] {failure.message}"
  return 1

/-- What is printed where the input ends at a question. -/
def abortNotice : Event := .printed .error "\nAborted.\n"

/-- What becomes of the end of a conversation. -/
def conclude (ending : Except Ending Nat) (desk : Desk) : Outcome :=
  match ending with
  | .ok status | .error (.finished status) => ⟨status, desk.transcript, none⟩
  | .error .aborted => ⟨1, desk.transcript ++ [abortNotice], none⟩
  | .error (.failed failure) => ⟨1, desk.transcript, some failure⟩

/-- Does what the options ask for and reports the failures that are for the user. -/
def performReporting [Platform] (world : World) (o : Options) : Conversation Nat :=
  tryCatch (perform world o) fun
    | .failed failure => if failure.isReported then report failure else fail failure
    | ending => throw ending

/-- Runs the program. -/
def run [Platform] (world : World) (arguments : List String) : Outcome :=
  match Options.read? arguments with
  | none => ⟨2, [], none⟩
  | some o =>
    let answers := (Text.bareLines (Text.unifyLineEnds world.input.toList)).map String.ofList
    let (ending, desk) := (performReporting world o).run ⟨answers, []⟩
    conclude ending desk

/-- Whether the run has ended for want of an answer. -/
def Outcome.wantsAnswer (outcome : Outcome) : Bool :=
  outcome.transcript.getLast? == some abortNotice

/-- What has been printed on a stream. -/
def Outcome.printed (outcome : Outcome) (stream : Stream) : String :=
  String.join (outcome.transcript.filterMap fun
    | .printed s text => if s = stream then some text else none
    | _ => none)

/-- The programs that have been run. -/
def Outcome.calls (outcome : Outcome) : List Removal.Call :=
  outcome.transcript.filterMap fun
    | .called command directory => some ⟨command, directory⟩
    | _ => none

/-- The disk after a run. -/
def Outcome.diskAfter (outcome : Outcome) (disk : Disk) : Disk :=
  outcome.transcript.foldl (fun disk event =>
    match event with
    | .wrote path text => (disk.write path text).toOption.getD disk
    | _ => disk) disk

end DependencyAudit.CommandLine

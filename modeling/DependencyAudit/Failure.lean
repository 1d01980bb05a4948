import DependencyAudit.Exclusion.Pattern
import DependencyAudit.FileSystem.Disk
import DependencyAudit.Json.Reader
import DependencyAudit.Removal.Manager
import DependencyAudit.Terminal.Markup

namespace DependencyAudit

/-- What is wrong with the manifest or the settings of a project. -/
inductive Configuration where
  | manifestMissing (project : Path)
  | manifestUnreadable (path : Path) (refusal : FileSystem.Refusal)
  | manifestMalformed (path : Path) (fault : Json.Fault)
  | settingsUnreadable (path : Path) (refusal : FileSystem.Refusal)
  | settingsMalformed (path : Path) (fault : Json.Fault)
  | notAnObject (path : Path)
  | groupNotAnObject (key : String) (path : Path)
  | notTexts (key : String)
  /-- A package manager that is none of the known ones, as a message shows it. -/
  | unknownManager (shown : String)
  deriving DecidableEq, Repr

namespace Configuration

def message : Configuration → String
  | manifestMissing project => s!"package.json not found in {project}"
  | manifestUnreadable path refusal => s!"Could not read {path}: {refusal.message}"
  | manifestMalformed path fault => s!"Invalid JSON in {path}: {fault.message}"
  | settingsUnreadable path refusal => s!"Invalid config file {path}: {refusal.message}"
  | settingsMalformed path fault => s!"Invalid config file {path}: {fault.message}"
  | notAnObject path => s!"{path} must contain a JSON object"
  | groupNotAnObject key path => s!"\"{key}\" in {path} must be an object"
  | notTexts key => s!"\"{key}\" must be a list of strings"
  | unknownManager shown =>
    s!"\"packageManager\" must be one of {Removal.Manager.knownNames}, got {shown}"

end Configuration

/-- Why packages are not removed. -/
inductive RemovalFault where
  | programNotFound (program : String)
  /-- The program cannot be started; a path tells where. -/
  | cannotStart (program : String) (refusal : FileSystem.Refusal)
  /-- The directory in which the program was to run cannot be entered. -/
  | cannotEnter (program : String) (dead : FileSystem.Dead) (directory : Path)
  | exited (manager : String) (code : Int)
  deriving DecidableEq, Repr

namespace RemovalFault

/-- The wording of a directory that cannot be entered. -/
def directoryMessage (dead : FileSystem.Dead) (directory : Path) : String :=
  match dead.refusal directory.toText with
  | .system code reason path => s!"[Errno {code}] {reason}: PosixPath({Text.quoted path})"
  | .plain message => message

def message : RemovalFault → String
  | programNotFound program => s!"'{program}' not found in PATH"
  | cannotStart program refusal => s!"Failed to run {program}: {refusal.message}"
  | cannotEnter program dead directory =>
    s!"Failed to run {program}: {directoryMessage dead directory}"
  | exited manager code => s!"{manager} exited with code {code}"

end RemovalFault

/-- Why an audit cannot go on. -/
inductive Failure where
  | configuration (c : Configuration)
  /-- A source file was found but could not be read. -/
  | unreadableSource (path : Path) (reason : String)
  | removal (fault : RemovalFault)
  | pattern (fault : Exclusion.Fault)
  | markup (fault : Terminal.MarkupFault)
  | tooLong (number : Text.TooLong)
  | tooDeep (place : Json.TooDeep)
  /-- A text that is to be printed holds half a surrogate pair. -/
  | unprintable (fault : Text.EncodeFault)
  /-- An argument of a program holds half a surrogate pair. -/
  | unencodable (fault : Text.EncodeFault)
  | access (refusal : FileSystem.Refusal)
  | undecodable (fault : Text.Utf8Fault)
  /-- A path or an argument holds the character NUL. -/
  | nulCharacter
  /-- There is no program to run. -/
  | noCommand
  /-- The project is behind links that lead in a circle. -/
  | linkLoop (path : Path)
  deriving DecidableEq, Repr

namespace Failure

def message : Failure → String
  | configuration c => c.message
  | unreadableSource path reason => s!"Could not read {path}: {reason}"
  | removal fault => fault.message
  | pattern fault => fault.message
  | markup fault => fault.message
  | tooLong number => number.message
  | tooDeep place => place.message
  | unprintable fault =>
    fault.message ++ "\n*** You may need to add PYTHONIOENCODING=utf-8 to your environment ***"
  | unencodable fault => fault.message
  | access refusal => refusal.message
  | undecodable fault => fault.message
  | nulCharacter => "embedded null byte"
  | noCommand => "list index out of range"
  | linkLoop path => s!"Symlink loop from {Text.quoted path.toText}"

/-- Whether a failure is reported to the user in a line of its own. -/
def isReported : Failure → Bool
  | configuration _ | unreadableSource _ _ | removal _ => true
  | _ => false

/-- What a malformed text makes of a configuration. A number that is too long to be converted and a
value that is nested too deep are no faults of the configuration. -/
def ofJson (malformed : Json.Fault → Configuration) : Json.Fault → Failure
  | .tooLong number => .tooLong number
  | .tooDeep place => .tooDeep place
  | fault => .configuration (malformed fault)

end Failure

namespace FileSystem.Disk

/-- The entries of the directory at a path that may hold any character. -/
def entriesAt (d : Disk) (p : Path) : Except Failure (List Entry) :=
  if hasNul p then .error .nulCharacter else (d.list p).mapError .access

/-- The text of the file at a path that may hold any character. -/
def textAt (d : Disk) (p : Path) : Except Failure String :=
  if hasNul p then .error .nulCharacter else (d.read p).mapError .access

end FileSystem.Disk

end DependencyAudit

import DependencyAudit.Failure
import DependencyAudit.Json.Shown
import DependencyAudit.Text.Pieces

namespace DependencyAudit

/-- The members of a settings file; none where a project has no such file. -/
structure Settings where
  members : Json.Members

namespace Settings

def fileName : String := ".depcheck-lite.json"

/-- Where the settings of a project are. -/
def pathIn (project : Path) : Path := project.child fileName

/-- A setting that is a list of texts, empty by default. -/
def names (s : Settings) (key : String) : Except Configuration (List Name) :=
  match s.members.get? key with
  | none => .ok []
  | some value =>
    match value.names? with
    | some names => .ok names
    | none => .error (.notTexts key)

/-- The packages to leave out of the audit. -/
def ignore (s : Settings) : Except Configuration (List Name) := s.names "ignore"

/-- The package manager for removals, if one is set. -/
def manager? (s : Settings) : Except Configuration (Option Removal.Manager) :=
  match s.members.get? "packageManager" with
  | none | some .null => .ok none
  | some value =>
    match (value.name?.bind Name.text?).bind Removal.Manager.ofName? with
    | some manager => .ok (some manager)
    | none => .error (.unknownManager value.shown)

section

variable [Platform]

/-- A setting that is a list of texts for paths. -/
def texts (s : Settings) (key : String) : Except Configuration (List String) :=
  (s.names key).map fun names => names.map fun name => name.text?.getD (Platform.standIn name)

/-- The directories to scan; none for the usual ones. -/
def directories (s : Settings) : Except Configuration (List String) := s.texts "dirs"

/-- The patterns of what to leave out of the scan. -/
def exclusions (s : Settings) : Except Configuration (List String) := s.texts "exclude"

/-- The settings that a text writes. -/
def ofText (path : Path) (text : String) : Except Failure Settings := do
  match ← (Json.parse Platform.nestingDepth text).mapError (.ofJson (.settingsMalformed path)) with
  | .object members => return ⟨members⟩
  | _ => throw (.configuration (.notAnObject path))

/-- The settings of a project. Their text must be UTF-8 throughout. -/
def load (disk : FileSystem.Disk) (project : Path) : Except Failure Settings := do
  let path := pathIn project
  if ← (disk.exists? path).mapError .access then
    let content ← (disk.content path).mapError (.configuration <| .settingsUnreadable path ·)
    let text ← content.toStrictText.mapError .undecodable
    ofText path text
  else return ⟨[]⟩

end

/-- The directories of a comma-separated list, without those that are blank. -/
def listed (list : String) : List String :=
  (((Text.piecesAt ',' list.toList).map Text.trim).filter (· ≠ [])).map String.ofList

/-- The directories that a comma-separated value asks for, if it is there and names one. -/
def splitDirectories (value : Option String) : Option (List String) :=
  let directories := listed (value.getD "")
  if directories = [] then none else some directories

end Settings

end DependencyAudit

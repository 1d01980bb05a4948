import DependencyAudit.FileSystem.View
import DependencyAudit.Names

namespace DependencyAudit.Removal

/-- A package manager. One that is not known is told what npm is told. -/
inductive Manager where
  | npm
  | yarn
  | pnpm
  | other (name : String)
  deriving DecidableEq, Repr

namespace Manager

/-- The managers that a setting can name. -/
def known : List Manager := [.npm, .yarn, .pnpm]

def name : Manager → String
  | npm => "npm"
  | yarn => "yarn"
  | pnpm => "pnpm"
  | other name => name

/-- The known manager of a name. -/
def ofName? (name : String) : Option Manager := known.find? (·.name = name)

/-- The manager of a name. -/
def ofName (name : String) : Manager := (ofName? name).getD (.other name)

/-- The names that a setting can have. -/
def knownNames : String := String.intercalate ", " (known.map name)

/-- The lock file that a manager writes, where it tells of it. -/
def lockFile? : Manager → Option String
  | pnpm => some "pnpm-lock.yaml"
  | yarn => some "yarn.lock"
  | _ => none

/-- The managers in the order in which their lock files are looked for. -/
def detected : List Manager := [.pnpm, .yarn]

/-- The lock file of a manager in a project. -/
def lockPath? (project : Path) (manager : Manager) : Option Path :=
  manager.lockFile?.map project.child

/-- The first of some managers whose lock file is in a project. -/
def firstWithLock (view : FileSystem.View) (project : Path) :
    List Manager → Except FileSystem.Refusal (Option Manager)
  | [] => .ok none
  | manager :: rest =>
    match manager.lockPath? project with
    | none => firstWithLock view project rest
    | some path => do
      if ← view.exists? path then return some manager
      firstWithLock view project rest

/-- The manager of a project, by its lock file; npm where there is none. -/
def detect (view : FileSystem.View) (project : Path) : Except FileSystem.Refusal Manager := do
  let found ← firstWithLock view project detected
  return found.getD .npm

/-- The words that tell a manager to uninstall what follows. -/
def uninstallWords : Manager → List String
  | yarn | pnpm => ["remove"]
  | npm | other _ => ["uninstall", "--save"]

/-- The command line that removes packages. -/
def removalCommand (manager : Manager) (packages : List Name) : List Name :=
  (manager.name :: manager.uninstallWords).map Name.ofString ++ packages

end Manager

end DependencyAudit.Removal

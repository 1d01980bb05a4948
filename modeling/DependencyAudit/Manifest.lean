import DependencyAudit.Failure

namespace DependencyAudit

/-- The dependency groups of a project. -/
structure Manifest where
  path : Path
  dependencies : Json.Members
  devDependencies : Json.Members

namespace Manifest

def fileName : String := "package.json"

/-- Where the manifest of a project is. -/
def pathIn (project : Path) : Path := project.child fileName

/-- The names in either group. -/
def declared (m : Manifest) : List Name :=
  Names.ascending (m.dependencies.keys ++ m.devDependencies.keys)

/-- The declared names without those that are ignored. -/
def filtered (m : Manifest) (ignore : List Name) : List Name :=
  m.declared.filter (· ∉ ignore)

/-- A group of a manifest. One that is absent or null is empty. -/
def group (path : Path) (members : Json.Members) (key : String) : Except Failure Json.Members :=
  match members.get? key with
  | none | some .null => .ok []
  | some (.object group) => .ok group
  | some _ => .error (.configuration (.groupNotAnObject key path))

section

variable [Platform]

/-- The manifest that a text writes. -/
def ofText (path : Path) (text : String) : Except Failure Manifest := do
  match ← (Json.parse Platform.nestingDepth text).mapError (.ofJson (.manifestMalformed path)) with
  | .object members => do
    let dependencies ← group path members "dependencies"
    let devDependencies ← group path members "devDependencies"
    return ⟨path, dependencies, devDependencies⟩
  | _ => throw (.configuration (.notAnObject path))

/-- The manifest of a project. -/
def load (view : FileSystem.View) (project : Path) : Except Failure Manifest := do
  let path := pathIn project
  if ← (view.exists? path).mapError .access then
    let text ← (view.read path).mapError (.configuration <| .manifestUnreadable path ·)
    ofText path text
  else throw (.configuration (.manifestMissing project))

end

end Manifest

end DependencyAudit

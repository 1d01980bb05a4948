import DependencyAudit.Import
import DependencyAudit.Manifest
import DependencyAudit.Scan

namespace DependencyAudit

/-- The outcome of an analysis: the declared names that are used and those that are not, each in
ascending order, and how many there are. -/
structure Result where
  used : List Name
  unused : List Name
  total : Nat
  deriving DecidableEq, Repr

/-- The result for a set of declared names and a set of names that are referred to. -/
def Result.ofNames (declared referred : List Name) : Result where
  used := (Names.ascending declared).filter (· ∈ referred)
  unused := (Names.ascending declared).filter (· ∉ referred)
  total := (Names.ascending declared).length

/-- What is counted during an analysis. -/
structure Statistics where
  filesScanned : Nat
  referencesFound : Nat
  /-- The directories that could not be listed, as they are written. -/
  skipped : List String
  deriving DecidableEq, Repr

/-- Nothing counted yet. -/
def Statistics.zero : Statistics := ⟨0, 0, []⟩

/-- What an analysis needs to know: the project, what to scan of it, and what it declares. -/
structure Analyzer where
  project : Path
  directories : List String
  excluder : Exclusion.Excluder
  /-- The declared names that are not ignored, in ascending order. -/
  declared : List Name

namespace Analyzer

/-- The analyzer of a project. -/
def load [Platform] (view : FileSystem.View) (project : Path) (ignore : List Name)
    (directories : List String) (excluder : Exclusion.Excluder) : Except Failure Analyzer := do
  let manifest ← Manifest.load view project
  return ⟨project, directories, excluder, manifest.filtered ignore⟩

/-- Scans the project. -/
def scan (a : Analyzer) (view : FileSystem.View) : Scan.Outcome :=
  Scan.scan view a.excluder a.project (Scan.effective a.directories)

/-- The references of files, file by file; the first file that cannot be read ends it. -/
def readAll (view : FileSystem.View) : List Path → Except Failure (List (List String))
  | [] => .ok []
  | path :: rest =>
    match view.read path with
    | .error refusal => .error (.unreadableSource path refusal.reason)
    | .ok text => (readAll view rest).map (Import.references text :: ·)

/-- The result and the statistics of files with these references. -/
def conclude (a : Analyzer) (found : Scan.Found) (references : List (List String)) :
    Result × Statistics :=
  (.ofNames a.declared ((references.flatten.map Name.ofString).filter (· ∈ a.declared)),
    ⟨references.length, references.flatten.length, found.skipped.map Path.toText⟩)

/-- Analyses the project. -/
def analyze (a : Analyzer) (view : FileSystem.View) : Except Failure (Result × Statistics) := do
  let outcome := a.scan view
  let references ← readAll view outcome.found.files
  match outcome.refusal with
  | some refusal => throw (.access refusal)
  | none => return a.conclude outcome.found references

/-- The source files that an analysis reads, one after the other: all that are found, or those up to
the first that cannot be read. -/
def filesRead (view : FileSystem.View) : List Path → List Path
  | [] => []
  | path :: rest =>
    match view.read path with
    | .error _ => [path]
    | .ok _ => path :: filesRead view rest

end Analyzer

end DependencyAudit

import DependencyAudit.Exclusion.Excluder
import DependencyAudit.FileSystem.View

namespace DependencyAudit.Scan

open FileSystem

/-- The directories that are scanned where none are given. -/
def usualDirectories : List String := ["src", "lib", "app", "components", "pages", "utils"]

/-- The extensions of source files. -/
def sourceSuffixes : List String := [".js", ".jsx", ".ts", ".tsx", ".mjs", ".cjs"]

/-- The directory of installed packages, which is never entered. -/
def packageCache : String := "node_modules"

/-- The directories to scan: those given, or the usual ones. -/
def effective (directories : List String) : List String :=
  if directories = [] then usualDirectories else directories

/-- What a walk has found: source files, and directories that could not be listed. -/
structure Found where
  files : List Path
  skipped : List Path
  deriving DecidableEq, Repr

namespace Found

def none : Found := ⟨[], []⟩

def append (a b : Found) : Found := ⟨a.files ++ b.files, a.skipped ++ b.skipped⟩

instance : Append Found := ⟨append⟩

/-- All findings together. -/
def concat (findings : List Found) : Found := findings.foldr append none

end Found

/-- Whether an entry of a directory is a source file that is not left out. -/
def isSource (excluder : Exclusion.Excluder) (directory : Path) (entry : Entry) : Bool :=
  entry.kind == .file && (directory.child entry.name).suffix ∈ sourceSuffixes &&
    !excluder.excludes (directory.child entry.name) false

/-- Whether an entry of a directory is a directory that a walk enters. -/
def isEntered (excluder : Exclusion.Excluder) (directory : Path) (entry : Entry) : Bool :=
  entry.kind == .directory && entry.name != packageCache &&
    !excluder.excludes (directory.child entry.name) true

theorem directory_of_isEntered {excluder : Exclusion.Excluder} {directory : Path} {entry : Entry}
    (enters : isEntered excluder directory entry = true) : entry.kind = .directory := by
  simp only [isEntered, Bool.and_eq_true, beq_iff_eq] at enters
  exact enters.1.1

/-- What is found in a directory and below it. The directories in it are walked in the order
opposite to their listing. -/
def walk (view : View) (excluder : Exclusion.Excluder) (directory : Path) : Found :=
  match _listed : view.list directory with
  | .error _ => ⟨[], [directory]⟩
  | .ok entries =>
    let own := (entries.filter (isSource excluder directory)).map (directory.child ·.name)
    let below := (entries.filter (isEntered excluder directory)).reverse.attach.map fun entry =>
      walk view excluder (directory.child entry.1.name)
    Found.concat (⟨own, []⟩ :: below)
termination_by view.rank directory
decreasing_by
  have listed := List.mem_filter.1 (List.mem_reverse.1 entry.2)
  exact view.rank_child_lt _listed listed.1 (directory_of_isEntered listed.2)

/-- What a walk finds, directory by directory. -/
theorem walk_eq (view : View) (excluder : Exclusion.Excluder) (directory : Path) :
    walk view excluder directory =
      match view.list directory with
      | .error _ => ⟨[], [directory]⟩
      | .ok entries =>
        Found.concat
          (⟨(entries.filter (isSource excluder directory)).map (directory.child ·.name), []⟩ ::
            (entries.filter (isEntered excluder directory)).reverse.map fun entry =>
              walk view excluder (directory.child entry.name)) := by
  rw [walk]
  split
  · next listed => rw [listed]
  · next listed =>
    rw [listed]
    simp only [List.map_attach_eq_pmap, List.pmap_eq_map]

/-- The outcome of a scan: what has been found, and why it ended early if it did. -/
structure Outcome where
  found : Found
  refusal : Option Refusal
  deriving DecidableEq, Repr

/-- Scans directories of a project one after the other. Those that are not there are passed over;
one that cannot be looked at ends the scan. -/
def scan (view : View) (excluder : Exclusion.Excluder) (project : Path) : List String → Outcome
  | [] => ⟨.none, none⟩
  | name :: rest =>
    let root := project.join (.ofString name)
    match view.isDirectory root with
    | .error refusal => ⟨.none, some refusal⟩
    | .ok false => scan view excluder project rest
    | .ok true =>
      let others := scan view excluder project rest
      ⟨walk view excluder root ++ others.found, others.refusal⟩

end DependencyAudit.Scan

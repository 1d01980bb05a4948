import DependencyAudit.Proofs.Except
import DependencyAudit.Proofs.Scan.Exact
import Mathlib.Data.List.Perm.Basic

namespace DependencyAudit

namespace FileSystem

/-- The second view differs from the first one only in the order in which it lists entries. -/
structure View.Reorders (view other : View) : Prop where
  exists_eq : other.exists? = view.exists?
  isDirectory_eq : other.isDirectory = view.isDirectory
  read_eq : other.read = view.read
  list : ∀ directory,
    (∃ refusal, view.list directory = .error refusal ∧ other.list directory = .error refusal) ∨
      ∃ entries others, view.list directory = .ok entries ∧ other.list directory = .ok others ∧
        entries.Perm others

theorem View.Reorders.refl (view : View) : view.Reorders view where
  exists_eq := rfl
  isDirectory_eq := rfl
  read_eq := rfl
  list directory := by
    cases view.list directory with
    | error refusal => exact .inl ⟨refusal, rfl, rfl⟩
    | ok entries => exact .inr ⟨entries, entries, rfl, rfl, .refl entries⟩

theorem View.Reorders.symm {view other : View} (same : view.Reorders other) :
    other.Reorders view where
  exists_eq := same.exists_eq.symm
  isDirectory_eq := same.isDirectory_eq.symm
  read_eq := same.read_eq.symm
  list directory := by
    rcases same.list directory with ⟨refusal, refused, refused'⟩ | ⟨_, _, listed, listed', perm⟩
    · exact .inl ⟨refusal, refused', refused⟩
    · exact .inr ⟨_, _, listed', listed, perm.symm⟩

/-- The view that reads every listing backwards. -/
def View.backwards (view : View) : View where
  exists? := view.exists?
  isDirectory := view.isDirectory
  list directory := (view.list directory).map List.reverse
  read := view.read
  rank := view.rank
  rank_child_lt := by
    intro directory entries entry mapped member isDirectory
    obtain ⟨forwards, listed, rfl⟩ := Except.map_eq_ok_iff.mp mapped
    exact view.rank_child_lt listed (List.mem_reverse.mp member) isDirectory

theorem View.reorders_backwards (view : View) : view.Reorders view.backwards where
  exists_eq := rfl
  isDirectory_eq := rfl
  read_eq := rfl
  list directory := by
    have backwards : view.backwards.list directory = (view.list directory).map List.reverse := rfl
    rw [backwards]
    cases view.list directory with
    | error refusal => exact .inl ⟨refusal, rfl, rfl⟩
    | ok entries => exact .inr ⟨entries, _, rfl, rfl, (List.reverse_perm entries).symm⟩

end FileSystem

namespace Scan

open FileSystem

variable {view other : View} {excluder : Exclusion.Excluder} {project : Path}

theorem files_own_perm (same : view.Reorders other) (directory : Path) :
    (own view excluder directory).files.Perm (own other excluder directory).files := by
  unfold own
  rcases same.list directory with ⟨_, refused, refused'⟩ | ⟨_, _, listed, listed', perm⟩
  · rw [refused, refused']
  · rw [listed, listed']
    exact (perm.filter _).map _

theorem skipped_own_perm (same : view.Reorders other) (directory : Path) :
    (own view excluder directory).skipped.Perm (own other excluder directory).skipped := by
  unfold own
  rcases same.list directory with ⟨_, refused, refused'⟩ | ⟨_, _, listed, listed', _⟩
  · rw [refused, refused']
  · rw [listed, listed']

theorem inside_perm (same : view.Reorders other) (directory : Path) :
    (inside view excluder directory).Perm (inside other excluder directory) := by
  unfold inside
  rcases same.list directory with ⟨_, refused, refused'⟩ | ⟨_, _, listed, listed', perm⟩
  · rw [refused, refused']
  · rw [listed, listed']
    have kept := perm.filter (isEntered excluder directory)
    have reversed := (List.reverse_perm _).trans (kept.trans (List.reverse_perm _).symm)
    exact reversed.map _

/-- What holds of each directory by itself holds of the walk from it. -/
theorem walk_perm {part : Found → List Path} (reading : Found.Reading part)
    (same : view.Reorders other)
    (ownPerm : ∀ d, (part (own view excluder d)).Perm (part (own other excluder d)))
    (root : Path) :
    (part (walk view excluder root)).Perm (part (walk other excluder root)) := by
  induction ranked : view.rank root using Nat.strongRecOn generalizing root with
  | _ rank ih =>
    have below : (part (pending view excluder (inside view excluder root))).Perm
        (part (pending other excluder (inside other excluder root))) := by
      simp only [pending, reading.concat, List.flatMap_map]
      refine (inside_perm same root).flatMap fun child member => ?_
      exact ih _ (ranked ▸ rank_lt_of_mem_inside member) child rfl
    rw [walk_eq_own_append, walk_eq_own_append, reading.append, reading.append]
    exact (ownPerm root).append below

theorem files_walk_perm (same : view.Reorders other) (root : Path) :
    (walk view excluder root).files.Perm (walk other excluder root).files :=
  walk_perm Found.reading_files same (files_own_perm same) root

theorem skipped_walk_perm (same : view.Reorders other) (root : Path) :
    (walk view excluder root).skipped.Perm (walk other excluder root).skipped :=
  walk_perm Found.reading_skipped same (skipped_own_perm same) root

theorem starts_eq_of_reorders (same : view.Reorders other) (names : List String) :
    starts other project names = starts view project names := by
  simp only [starts, same.isDirectory_eq]

theorem refusal_scan_eq (same : view.Reorders other) (names : List String) :
    (scan other excluder project names).refusal = (scan view excluder project names).refusal := by
  have asked : refusalAt other project = refusalAt view project := by
    funext name
    simp only [refusalAt, same.isDirectory_eq]
  rw [scan_eq, scan_eq, asked]

theorem scan_perm {part : Found → List Path} (reading : Found.Reading part)
    (same : view.Reorders other)
    (walkPerm : ∀ root, (part (walk view excluder root)).Perm (part (walk other excluder root)))
    (names : List String) :
    (part (scan view excluder project names).found).Perm
      (part (scan other excluder project names).found) := by
  rw [scan_eq, scan_eq, starts_eq_of_reorders same]
  simp only [pending, reading.concat, List.flatMap_map]
  exact List.Perm.flatMap_left _ fun root _ => walkPerm root

/-- The source files of a scan are the same up to order. -/
theorem files_scan_perm (same : view.Reorders other) (names : List String) :
    (scan view excluder project names).found.files.Perm
      (scan other excluder project names).found.files :=
  scan_perm Found.reading_files same (files_walk_perm same) names

theorem skipped_scan_perm (same : view.Reorders other) (names : List String) :
    (scan view excluder project names).found.skipped.Perm
      (scan other excluder project names).found.skipped :=
  scan_perm Found.reading_skipped same (skipped_walk_perm same) names

/-- Where every name can be looked at, it is the set of names that decides where a scan starts. -/
theorem mem_starts {names : List String}
    (answers : ∀ name ∈ names, Answers view (startOf project name)) {root : Path} :
    root ∈ starts view project names ↔
      (∃ name ∈ names, startOf project name = root) ∧ view.isDirectory root = .ok true := by
  rw [starts_of_answers answers, List.mem_filter, List.mem_map, decide_eq_true_eq]

theorem mem_files_scan {names : List String} {path : Path} :
    path ∈ (scan view excluder project names).found.files ↔
      ∃ root ∈ starts view project names, path ∈ (walk view excluder root).files := by
  rw [scan_eq, mem_pending Found.reading_files]

/-- More names lead to more files, and to none less. -/
theorem files_scan_subset {names more : List String}
    (answers : ∀ name ∈ names, Answers view (startOf project name))
    (answers' : ∀ name ∈ more, Answers view (startOf project name)) (within : names ⊆ more) :
    (scan view excluder project names).found.files ⊆
      (scan view excluder project more).found.files := by
  intro path found
  obtain ⟨root, start, below⟩ := mem_files_scan.mp found
  obtain ⟨⟨name, named, leads⟩, stands⟩ := (mem_starts answers).mp start
  exact mem_files_scan.mpr
    ⟨root, (mem_starts answers').mpr ⟨⟨name, within named, leads⟩, stands⟩, below⟩

end Scan

end DependencyAudit

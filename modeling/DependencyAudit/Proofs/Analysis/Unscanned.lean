import DependencyAudit.Proofs.Analysis.Order
import DependencyAudit.Proofs.Manifest.Loading
import DependencyAudit.Proofs.Scan.Unscanned

namespace DependencyAudit

open FileSystem

/-- Two analyses come to the same result from as many files and references, or both fail at a source
file. -/
def SameVerdict (first second : Except Failure (Result × Statistics)) : Prop :=
  (∃ result statistics counted,
    first = .ok (result, statistics) ∧ second = .ok (result, counted) ∧
      statistics.filesScanned = counted.filesScanned ∧
      statistics.referencesFound = counted.referencesFound) ∨
    Unreadable first ∧ Unreadable second

/-- Only directories stand above the entries of a tree. -/
def FileSystem.Memory.IsTree (m : Memory) : Prop :=
  ∀ node ∈ m.nodes, ∀ directory, directory.Below node.1 →
    ∀ found, m.node? directory = some found → found = .directory

/-- What is entered at a directory of a tree is the directory. -/
theorem FileSystem.Memory.IsTree.eq_directory {m : Memory} {p : Path} {node : Node}
    (isTree : m.IsTree) (stands : m.isDirectory p) (found : m.node? p = some node) :
    node = .directory := by
  rcases Memory.isDirectory_iff.mp stands with isDirectory | ⟨other, entered, below⟩
  · exact Option.some.inj (found.symm.trans isDirectory)
  · exact isTree other entered p below node found

/-- A file of a tree is no directory. -/
theorem FileSystem.Memory.IsTree.not_isDirectory {m : Memory} {p : Path} {text : String}
    (isTree : m.IsTree) (node : m.node? p = some (.file text)) : m.isDirectory p = false :=
  Bool.eq_false_iff.mpr fun stands => by cases isTree.eq_directory stands node

/-- What an analysis makes of a tree does not change if a text is entered at a path. -/
def Ignores (a : Analyzer) (m : Memory) (p : Path) : Prop :=
  ∀ text, SameVerdict (a.analyze m.view) (a.analyze (m.write p text).view)

namespace Analyzer

variable {view other : View} {a : Analyzer} {m : Memory} {p : Path}

/-- Scans that go through, find the same files and can read them alike lead to the same verdict. -/
theorem sameVerdict_of_perm (through : (a.scan view).refusal = none)
    (through' : (a.scan other).refusal = none)
    (files : (a.scan view).found.files.Perm (a.scan other).found.files)
    (same : ∀ path ∈ (a.scan view).found.files, other.read path = view.read path) :
    SameVerdict (a.analyze view) (a.analyze other) := by
  have failing : Unreadable (a.analyze view) ↔ Unreadable (a.analyze other) := by
    rw [unreadable_iff, unreadable_iff]
    simp only [← files.mem_iff]
    refine exists_congr fun path => and_congr_right fun member => ?_
    rw [same path member]
  rcases result_or_unreadable through with ⟨result, statistics, ended⟩ | failed
  · rcases result_or_unreadable through' with ⟨result', counted, ended'⟩ | failed'
    · have first := reconciles_of_analyze ended
      have second := (reconciles_of_analyze ended').of_read_eq fun path member =>
        same path (files.mem_iff.mpr member)
      obtain rfl := first.result_eq second fun path => files.mem_iff
      exact .inl ⟨result, statistics, counted, ended, ended', first.counts_eq second files⟩
    · exact .inr ⟨failing.mpr failed', failed'⟩
  · exact .inr ⟨failed, failing.mp failed⟩

/-- A text that concerns no scan of the analyzer has no say, whatever it is. -/
theorem ignores_of_unscanned (noDirectory : m.isDirectory p = false)
    (above : ∀ directory, directory.Below p → m.isDirectory directory ∨ m.node? directory = none)
    (unscanned : Scan.Unscanned a.excluder a.project (Scan.effective a.directories) p) :
    Ignores a m p := by
  intro text
  have through : ∀ tree : Memory, (a.scan tree.view).refusal = none :=
    fun tree => Scan.refusal_scan_eq_none_iff.mpr fun _ _ => ⟨_, rfl⟩
  refine sameVerdict_of_perm (through m) (through _)
    (Scan.files_scan_write_perm noDirectory above unscanned) ?_
  exact fun path found => Scan.read_write_of_mem_files unscanned found

/-- The manifest of a project has been read, but it is not a source file: it can be written over. -/
theorem ignores_manifest [Platform] {project : Path} {ignore : List Name}
    {directories : List String} {e : Exclusion.Excluder} (isTree : m.IsTree)
    (loaded : load m.view project ignore directories e = .ok a) :
    Ignores a m (Manifest.pathIn project) := by
  obtain ⟨manifest, found, -⟩ := exists_manifest_of_load loaded
  obtain ⟨-, content, read, -⟩ := Manifest.load_eq_ok_iff_ofText.mp found
  obtain ⟨-, node⟩ := Memory.read_eq_ok_iff.mp read
  have noDirectory := isTree.not_isDirectory node
  refine ignores_of_unscanned noDirectory
    (fun directory below => .inl (Memory.isDirectory_of_below_node? node below)) (.extension ?_)
  have named : (Manifest.pathIn project).name = Manifest.fileName := by
    simp [Manifest.pathIn, Path.name, Path.child]
  rw [Path.suffix, named]
  decide

/-- What is not scanned has no say in the verdict: neither a text at a path that concerns no scan,
nor the manifest, once it has been read. -/
theorem ignores_of_load [Platform] {project : Path} {ignore : List Name}
    {directories : List String} {e : Exclusion.Excluder} (isTree : m.IsTree)
    (loaded : load m.view project ignore directories e = .ok a) :
    (∀ p, m.isDirectory p = false →
      (∀ directory, directory.Below p → m.isDirectory directory ∨ m.node? directory = none) →
      Scan.Unscanned e project (Scan.effective directories) p → Ignores a m p) ∧
    Ignores a m (Manifest.pathIn project) := by
  refine ⟨fun p noDirectory above unscanned => ?_, ignores_manifest isTree loaded⟩
  obtain ⟨manifest, -, rfl⟩ := exists_manifest_of_load loaded
  exact ignores_of_unscanned noDirectory above unscanned

/-- A file of an installed package, in a directory to scan that is not there without it. -/
def installedFile : Path := ((Scan.application.child "src").child Scan.packageCache).child "index.js"

theorem isTree_sparseTree : sparseTree.IsTree := by
  intro node entered directory below found stands
  obtain rfl := List.mem_singleton.mp entered
  rw [sparseTree, Memory.node?, List.lookup_cons] at stands
  split at stands
  next here =>
    obtain rfl := beq_iff_eq.mp here
    exact absurd below.length_lt (Nat.lt_irrefl _)
  next => cases stands

attribute [local instance] Platform.standard in
/-- Nothing of the package is scanned, so it is no use of the package. -/
theorem ignores_installedFile :
    sparseTree.IsTree ∧
      load sparseTree.view Scan.application [] ["src"] (.none Scan.application) =
        .ok sparseAnalyzer ∧
      SameVerdict (sparseAnalyzer.analyze sparseTree.view)
        (sparseAnalyzer.analyze (sparseTree.write installedFile "import 'left-pad'").view) := by
  refine ⟨isTree_sparseTree, load_sparseTree, ?_⟩
  have start : Scan.startOf Scan.application "src" = Scan.application.child "src" := by
    decide +kernel
  refine (ignores_of_load isTree_sparseTree load_sparseTree).1 installedFile (by cbv) ?_ ?_ _
  · intro directory below
    refine .inr ?_
    rw [sparseTree, Memory.node?, List.lookup_cons]
    split
    next here =>
      obtain rfl := beq_iff_eq.mp here
      obtain ⟨name, names, same⟩ := below
      simp [installedFile, Manifest.pathIn, Manifest.fileName, Scan.application, Path.child] at same
    next => rfl
  · refine .behind fun name named _ => ?_
    obtain rfl := List.mem_singleton.mp named
    rw [start]
    exact ⟨_, Path.below_child _ Scan.packageCache, Path.below_child _ _, .inl (by cbv)⟩

end Analyzer

end DependencyAudit

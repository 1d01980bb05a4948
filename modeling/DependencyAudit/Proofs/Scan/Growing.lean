import DependencyAudit.Proofs.Scan.Unscanned

namespace DependencyAudit

open FileSystem

namespace FileSystem.Memory

variable {m other last : Memory} {p : Path} {text : String}

/-- The other tree has all directories of this one, and its files, possibly continued. The same
accesses fail. -/
structure GrowsTo (m other : Memory) : Prop where
  outages_eq : other.outages = m.outages
  isDirectory : ∀ p, m.isDirectory p → other.isDirectory p
  continues : ∀ p text, ¬ m.isDirectory p → m.node? p = some (.file text) →
    ¬ other.isDirectory p ∧ ∃ more, other.node? p = some (.file (text ++ more))

theorem GrowsTo.refl (m : Memory) : m.GrowsTo m where
  outages_eq := rfl
  isDirectory _ stands := stands
  continues _ text noDirectory node := ⟨noDirectory, "", by rw [node, String.append_empty]⟩

theorem GrowsTo.trans (first : m.GrowsTo other) (second : other.GrowsTo last) :
    m.GrowsTo last where
  outages_eq := second.outages_eq.trans first.outages_eq
  isDirectory p stands := second.isDirectory p (first.isDirectory p stands)
  continues p text noDirectory node := by
    obtain ⟨noDirectory', more, node'⟩ := first.continues p text noDirectory node
    obtain ⟨noDirectory'', further, node''⟩ := second.continues p _ noDirectory' node'
    exact ⟨noDirectory'', more ++ further, by rw [node'', String.append_assoc]⟩

/-- A text that is entered below directories, where there is nothing or a file that it continues,
makes a tree grow. -/
theorem growsTo_write (noDirectory : m.isDirectory p = false)
    (above : ∀ directory, directory.Below p → m.isDirectory directory ∨ m.node? directory = none)
    (continues : ∀ before, m.node? p = some (.file before) → ∃ more, text = before ++ more) :
    m.GrowsTo (m.write p text) where
  outages_eq := rfl
  isDirectory directory stands := (isDirectory_write_iff noDirectory).mpr (.inl stands)
  continues other before isFile node := by
    constructor
    · exact not_isDirectory_write noDirectory above isFile node
    · by_cases here : other = p
      · subst here
        obtain ⟨more, rfl⟩ := continues before node
        exact ⟨more, node?_write_self⟩
      · exact ⟨"", by rw [node?_write_of_ne here, node, String.append_empty]⟩

theorem GrowsTo.read (grows : m.GrowsTo other) (noDirectory : ¬ m.isDirectory p)
    (read : m.read p = .ok text) : ∃ more, other.read p = .ok (text ++ more) := by
  obtain ⟨accessible, node⟩ := read_eq_ok_iff.mp read
  obtain ⟨-, more, node'⟩ := grows.continues p text noDirectory node
  exact ⟨more, read_eq_ok_iff.mpr ⟨by rw [grows.outages_eq, accessible], node'⟩⟩

/-- A file that can be read later on can be read from the start. -/
theorem GrowsTo.exists_read (grows : m.GrowsTo other) {before : String}
    (node : m.node? p = some (.file before)) (read : other.read p = .ok text) :
    m.read p = .ok before := by
  obtain ⟨accessible, -⟩ := read_eq_ok_iff.mp read
  rw [grows.outages_eq] at accessible
  exact read_eq_ok_iff.mpr ⟨accessible, node⟩

end FileSystem.Memory

namespace Scan

variable {m other : Memory} {e : Exclusion.Excluder} {project root path : Path}

theorem Finds.of_growsTo (grows : m.GrowsTo other) (finds : Finds m.view e root path) :
    Finds other.view e root path := by
  obtain ⟨directory, name, enters, accessible, rfl, ⟨isFile, content, node⟩, source⟩ :=
    finds_memory_iff.mp finds
  obtain ⟨isFile', more, node'⟩ := grows.continues _ content isFile node
  refine finds_memory_iff.mpr ⟨directory, name,
    enters.of_isDirectory grows.outages_eq grows.isDirectory, ?_, rfl,
    ⟨isFile', content ++ more, node'⟩, source⟩
  rw [grows.outages_eq, accessible]

theorem files_scan_subset_of_growsTo (grows : m.GrowsTo other) (names : List String) :
    (scan m.view e project names).found.files ⊆ (scan other.view e project names).found.files := by
  intro path found
  obtain ⟨name, named, finds⟩ := mem_files_scan_memory.mp found
  exact mem_files_scan_memory.mpr ⟨name, named, finds.of_growsTo grows⟩

theorem exists_node_of_mem_files {names : List String}
    (found : path ∈ (scan m.view e project names).found.files) :
    ¬ m.isDirectory path ∧ ∃ content, m.node? path = some (.file content) := by
  obtain ⟨_, -, finds⟩ := mem_files_scan_memory.mp found
  exact finds.exists_node

end Scan

end DependencyAudit

import DependencyAudit.Proofs.FileSystem.Memory
import DependencyAudit.Proofs.Scan.Forbidden

namespace DependencyAudit.Scan

open FileSystem

/-- The path concerns no scan of the directories with these names: it has not the extension of a
source file, or is left out itself, or below each of the directories it is behind one that a walk
does not enter. -/
inductive Unscanned (e : Exclusion.Excluder) (project : Path) (names : List String)
    (p : Path) : Prop
  | extension : p.suffix ∉ sourceSuffixes → Unscanned e project names p
  | leftOut : e.excludes p false = true → Unscanned e project names p
  | behind : (∀ name ∈ names, (startOf project name).Below p →
      ∃ directory, (startOf project name).Below directory ∧ directory.Below p ∧
        Forbidden e directory) → Unscanned e project names p

variable {e : Exclusion.Excluder} {project root directory p path : Path} {names : List String}
  {m : Memory} {text : String}

theorem Unscanned.not_finds (unscanned : Unscanned e project names p) (view : View) {name : String}
    (named : name ∈ names) : ¬ Finds view e (startOf project name) p := by
  intro finds
  cases unscanned with
  | extension other =>
    obtain ⟨_, _, _, _, _, _, _, _, source, _⟩ := finds
    exact other source
  | leftOut excluded =>
    obtain ⟨_, _, _, _, _, _, _, _, _, kept⟩ := finds
    rw [excluded] at kept
    cases kept
  | behind covered =>
    obtain ⟨directory, beyond, above, forbidden⟩ := covered name named finds.below
    exact finds.not_forbidden beyond above forbidden

/-- Where no directory ceases to be one and none becomes inaccessible, a walk enters no less. -/
theorem Enters.of_isDirectory {other : Memory} (outages : other.outages = m.outages)
    (stands : ∀ path, m.isDirectory path → other.isDirectory path)
    (enters : Enters m.view e root directory) : Enters other.view e root directory := by
  induction enters with
  | start => exact .start
  | @down _ _ entry _ listed member isDirectory notCache kept ih =>
    obtain ⟨name, kind⟩ := entry
    obtain rfl : kind = .directory := isDirectory
    obtain ⟨accessible, inside⟩ := Memory.lists_directory_iff.mp ⟨_, listed, member⟩
    rw [← outages] at accessible
    obtain ⟨_, listed', member'⟩ :=
      Memory.lists_directory_iff.mpr ⟨accessible, stands _ inside⟩
    exact .down ih listed' member' rfl notCache kept

theorem Enters.of_write (noDirectory : m.isDirectory p = false)
    (enters : Enters m.view e root directory) :
    Enters (m.write p text).view e root directory := by
  have outages : (m.write p text).outages = m.outages := rfl
  refine enters.of_isDirectory outages fun path stands => ?_
  exact (Memory.isDirectory_write_iff noDirectory).mpr (.inl stands)

/-- Where there was something in a directory before, a walk that enters it with the text in the tree
does so without it. -/
theorem Enters.of_enters_write (enters : Enters (m.write p text).view e root directory)
    (stands : m.isDirectory directory) : Enters m.view e root directory := by
  induction enters with
  | start => exact .start
  | @down above _ entry _ listed member isDirectory other kept ih =>
    obtain ⟨name, kind⟩ := entry
    obtain rfl : kind = .directory := isDirectory
    obtain ⟨accessible, -⟩ := Memory.lists_directory_iff.mp ⟨_, listed, member⟩
    obtain ⟨_, listed', member'⟩ := (Memory.lists_directory_iff (m := m)).mpr ⟨accessible, stands⟩
    obtain ⟨-, inListing, -⟩ := Memory.mem_list_iff.mp ⟨_, listed', member'⟩
    obtain ⟨node, entered, within⟩ := Memory.mem_namesIn.mp inListing
    exact .down (ih (Memory.isDirectory_of_below entered ⟨name, within⟩)) listed' member' rfl other
      kept

/-- What a walk in memory finds: the files of the tree in accessible directories that it enters. -/
theorem finds_memory_iff :
    Finds m.view e root path ↔
      ∃ directory name, Enters m.view e root directory ∧ m.outages.lookup directory = none ∧
        path = directory.child name ∧ (¬ m.isDirectory path ∧
          ∃ content, m.node? path = some (.file content)) ∧
        path.suffix ∈ sourceSuffixes ∧ e.excludes path false = false := by
  constructor
  · intro finds
    obtain ⟨directory, _, ⟨name, kind⟩, enters, listed, member, isFile, rfl, source⟩ := finds
    obtain rfl : kind = .file := isFile
    obtain ⟨accessible, stands⟩ := Memory.lists_file_iff.mp ⟨_, listed, member⟩
    exact ⟨directory, name, enters, accessible, rfl, stands, source⟩
  · intro holds
    obtain ⟨directory, name, enters, accessible, rfl, stands, source⟩ := holds
    obtain ⟨_, listed, member⟩ := Memory.lists_file_iff.mpr ⟨accessible, stands⟩
    exact ⟨directory, _, _, enters, listed, member, rfl, rfl, source⟩

theorem Finds.exists_node (finds : Finds m.view e root path) :
    ¬ m.isDirectory path ∧ ∃ content, m.node? path = some (.file content) := by
  obtain ⟨_, _, _, _, _, isFile, -⟩ := finds_memory_iff.mp finds
  exact isFile

/-- A text at a path where there was no directory, below directories or nothing, leaves what is
found at other paths as it is. -/
theorem finds_write_iff (noDirectory : m.isDirectory p = false)
    (above : ∀ directory, directory.Below p → m.isDirectory directory ∨ m.node? directory = none)
    (apart : path ≠ p) : Finds (m.write p text).view e root path ↔ Finds m.view e root path := by
  have same : (m.write p text).node? path = m.node? path := Memory.node?_write_of_ne apart
  rw [finds_memory_iff, finds_memory_iff, same]
  constructor
  · intro holds
    obtain ⟨directory, name, enters, accessible, rfl, ⟨noDirectory', content, node⟩, source⟩ := holds
    have stands : m.isDirectory directory :=
      Memory.isDirectory_of_below (Memory.exists_mem_of_node? node) (Path.below_child _ _)
    have isFile : ¬ m.isDirectory (directory.child name) := fun before =>
      noDirectory' ((Memory.isDirectory_write_iff noDirectory).mpr (.inl before))
    exact ⟨directory, name, enters.of_enters_write stands, accessible, rfl,
      ⟨isFile, content, node⟩, source⟩
  · intro holds
    obtain ⟨directory, name, enters, accessible, rfl, ⟨noDirectory', content, node⟩, source⟩ := holds
    exact ⟨directory, name, enters.of_write noDirectory, accessible, rfl,
      ⟨Memory.not_isDirectory_write noDirectory above noDirectory' node, content, node⟩, source⟩

theorem Finds.isDirectory (finds : Finds m.view e root path) : m.isDirectory root := by
  obtain ⟨-, content, node⟩ := finds.exists_node
  exact Memory.isDirectory_of_below_node? node finds.below

/-- In memory a scan finds what one of the names leads to. -/
theorem mem_files_scan_memory : path ∈ (scan m.view e project names).found.files ↔
    ∃ name ∈ names, Finds m.view e (startOf project name) path := by
  have answers : ∀ name ∈ names, Answers m.view (startOf project name) := fun _ _ => ⟨_, rfl⟩
  simp only [mem_files_scan, mem_files_walk, mem_starts answers]
  constructor
  · intro holds
    obtain ⟨root, ⟨⟨name, named, rfl⟩, -⟩, finds⟩ := holds
    exact ⟨name, named, finds⟩
  · intro holds
    obtain ⟨name, named, finds⟩ := holds
    exact ⟨_, ⟨⟨name, named, rfl⟩, congrArg Except.ok finds.isDirectory⟩, finds⟩

open Classical in
/-- In memory a file is found as often as one of the names leads to it. -/
theorem count_files_scan_memory (m : Memory) (names : List String) (path : Path) :
    (scan m.view e project names).found.files.count path =
      (names.map (startOf project)).countP (Finds m.view e · path) := by
  rw [count_files_scan m.listsOnce, starts_of_answers fun _ _ => ⟨_, rfl⟩, List.countP_filter]
  refine List.countP_congr fun root _ => ?_
  simp only [decide_eq_true_eq, Bool.and_eq_true]
  refine and_iff_left_of_imp fun finds => ?_
  exact congrArg Except.ok finds.isDirectory

/-- A text at a path that concerns no scan leads to no other findings. -/
theorem files_scan_write_perm (noDirectory : m.isDirectory p = false)
    (above : ∀ directory, directory.Below p → m.isDirectory directory ∨ m.node? directory = none)
    (unscanned : Unscanned e project names p) :
    (scan m.view e project names).found.files.Perm
      (scan (m.write p text).view e project names).found.files := by
  classical
  refine List.perm_iff_count.mpr fun path => ?_
  rw [count_files_scan_memory, count_files_scan_memory]
  refine List.countP_congr fun root isStart => ?_
  obtain ⟨name, named, rfl⟩ := List.mem_map.mp isStart
  simp only [decide_eq_true_eq]
  by_cases here : path = p
  · subst here
    exact iff_of_false (unscanned.not_finds _ named) (unscanned.not_finds _ named)
  · exact (finds_write_iff noDirectory above here).symm

/-- What is found is not at that path, so it can be read as before. -/
theorem read_write_of_mem_files (unscanned : Unscanned e project names p)
    (found : path ∈ (scan m.view e project names).found.files) :
    (m.write p text).read path = m.read path := by
  obtain ⟨name, named, finds⟩ := mem_files_scan_memory.mp found
  have apart : path ≠ p := by
    rintro rfl
    exact unscanned.not_finds _ named finds
  obtain ⟨-, content, node⟩ := finds.exists_node
  exact Memory.read_write_of_ne apart node

end DependencyAudit.Scan

import DependencyAudit.Manifest
import DependencyAudit.Proofs.FileSystem.Tree

namespace DependencyAudit.Scan

open FileSystem

variable {view other : View} {e : Exclusion.Excluder} {project : Path} {t : Tree}
  {start : List String} {directory path : Path}

/-- What stands in a tree within the limits is within the limits. -/
theorem fits_of_stands (fits : ∀ entry ∈ t.entries, (project.down entry.1).Fits)
    {names : List String} (stands : (t.at? names).isSome) : (project.down names).Fits := by
  obtain ⟨entry, entered, leads⟩ := Tree.isSome_at?_iff.mp stands
  exact (fits entry entered).above leads

/-- Both views list the same in the directories of the tree. -/
theorem lists_of_shows (shown : view.Shows project t) (shown' : other.Shows project t)
    (fits : ∀ entry ∈ t.entries, (project.down entry.1).Fits) {names : List String}
    (stands : t.at? names = some .directory) {entries : List Entry} {entry : Entry}
    (listed : view.list (project.down names) = .ok entries) (member : entry ∈ entries) :
    ∃ item, t.at? (names ++ [entry.name]) = some item ∧ entry.kind = item.kind ∧
      ∃ others, other.list (project.down names) = .ok others ∧ entry ∈ others := by
  have fits' : (project.down names).Fits := fits_of_stands fits (by rw [stands]; rfl)
  obtain ⟨_, listed', mem_iff⟩ := shown.list names fits' stands
  rw [listed] at listed'
  cases listed'
  obtain ⟨item, inside, kind⟩ := (mem_iff entry).mp member
  obtain ⟨others, listed', mem_iff'⟩ := shown'.list names fits' stands
  exact ⟨item, inside, kind, others, listed', (mem_iff' entry).mpr ⟨item, inside, kind⟩⟩

/-- A walk enters directories of the tree only, and does so in either view. -/
theorem Enters.of_shows (enters : Enters view e (project.down start) directory)
    (shown : view.Shows project t) (shown' : other.Shows project t)
    (fits : ∀ entry ∈ t.entries, (project.down entry.1).Fits)
    (stands : t.at? start = some .directory) :
    Enters other e (project.down start) directory ∧
      ∃ names, directory = project.down names ∧ t.at? names = some .directory := by
  induction enters with
  | start => exact ⟨.start, start, rfl, stands⟩
  | @down _ _ entry _ listed member isDirectory notCache kept ih =>
    obtain ⟨enters, names, rfl, stands⟩ := ih
    obtain ⟨item, inside, kind, others, listed', member'⟩ :=
      lists_of_shows shown shown' fits stands listed member
    refine ⟨.down enters listed' member' isDirectory notCache kept, _, Path.child_down, ?_⟩
    rw [isDirectory] at kind
    cases item with
    | directory => exact inside
    | text s => cases kind

/-- What a walk finds are texts of the tree, found in either view. -/
theorem Finds.of_shows (finds : Finds view e (project.down start) path)
    (shown : view.Shows project t) (shown' : other.Shows project t)
    (fits : ∀ entry ∈ t.entries, (project.down entry.1).Fits)
    (stands : t.at? start = some .directory) :
    Finds other e (project.down start) path ∧
      ∃ names s, path = project.down names ∧ t.at? names = some (.text s) := by
  obtain ⟨directory, entries, entry, enters, listed, member, isFile, rfl, source⟩ := finds
  obtain ⟨enters, names, rfl, stands⟩ := enters.of_shows shown shown' fits stands
  obtain ⟨item, inside, kind, others, listed', member'⟩ :=
    lists_of_shows shown shown' fits stands listed member
  refine ⟨⟨_, others, entry, enters, listed', member', isFile, rfl, source⟩, ?_⟩
  rw [isFile] at kind
  cases item with
  | directory => cases kind
  | text s => exact ⟨_, s, Path.child_down, inside⟩

/-- All directories of the tree can be listed. -/
theorem not_skips_of_shows (shown : view.Shows project t)
    (fits : ∀ entry ∈ t.entries, (project.down entry.1).Fits)
    (stands : t.at? start = some .directory) :
    ¬ Skips view e (project.down start) directory := by
  intro skips
  obtain ⟨enters, refusal, refused⟩ := skips
  obtain ⟨-, names, rfl, stands⟩ := enters.of_shows shown shown fits stands
  obtain ⟨_, listed, -⟩ :=
    shown.list names (fits_of_stands fits (by rw [stands]; rfl)) stands
  rw [refused] at listed
  cases listed

/-- The name of a directory to scan leads down from the project, within the limits of a disk. -/
def Relative (project : Path) (name : String) : Prop :=
  (Path.ofString name).anchor = .here ∧ (startOf project name).Fits

theorem Relative.startOf_eq {name : String} (relative : Relative project name) :
    startOf project name = project.down (Path.ofString name).names := by
  rw [startOf, Path.join, if_pos relative.1, Path.down]

section

variable {names : List String}

theorem isDirectory_of_shows (shown : view.Shows project t) (nonempty : t.entries ≠ [])
    {name : String} (relative : Relative project name) :
    view.isDirectory (startOf project name) =
      .ok (t.at? (Path.ofString name).names == some .directory) := by
  have fits := relative.2
  rw [relative.startOf_eq] at fits ⊢
  exact shown.isDirectory_eq _ (.inr nonempty) fits

theorem answers_of_shows (shown : view.Shows project t) (nonempty : t.entries ≠ [])
    (relative : ∀ name ∈ names, Relative project name) :
    ∀ name ∈ names, Answers view (startOf project name) :=
  fun name named => ⟨_, isDirectory_of_shows shown nonempty (relative name named)⟩

/-- A scan starts at directories of the tree. -/
theorem exists_down_of_mem_starts (shown : view.Shows project t) (nonempty : t.entries ≠ [])
    (relative : ∀ name ∈ names, Relative project name) {root : Path}
    (isStart : root ∈ starts view project names) :
    ∃ start, root = project.down start ∧ t.at? start = some .directory := by
  obtain ⟨⟨name, named, rfl⟩, stands⟩ :=
    (mem_starts (answers_of_shows shown nonempty relative)).mp isStart
  refine ⟨_, (relative name named).startOf_eq, ?_⟩
  rw [isDirectory_of_shows shown nonempty (relative name named)] at stands
  exact beq_iff_eq.mp (Except.ok.inj stands)

theorem starts_eq_of_shows (shown : view.Shows project t) (shown' : other.Shows project t)
    (nonempty : t.entries ≠ []) (relative : ∀ name ∈ names, Relative project name) :
    starts other project names = starts view project names := by
  rw [starts_of_answers (answers_of_shows shown nonempty relative),
    starts_of_answers (answers_of_shows shown' nonempty relative)]
  refine List.filter_congr fun root isStart => ?_
  obtain ⟨name, named, rfl⟩ := List.mem_map.mp isStart
  rw [isDirectory_of_shows shown nonempty (relative name named),
    isDirectory_of_shows shown' nonempty (relative name named)]

/-- Both scans find the same texts. -/
theorem files_scan_perm_of_shows (shown : view.Shows project t) (shown' : other.Shows project t)
    (fits : ∀ entry ∈ t.entries, (project.down entry.1).Fits) (nonempty : t.entries ≠ [])
    (relative : ∀ name ∈ names, Relative project name) :
    (scan view e project names).found.files.Perm (scan other e project names).found.files := by
  classical
  refine List.perm_iff_count.mpr fun path => ?_
  rw [count_files_scan shown.once, count_files_scan shown'.once,
    starts_eq_of_shows shown shown' nonempty relative]
  refine List.countP_congr fun root isStart => ?_
  obtain ⟨start, rfl, stands⟩ := exists_down_of_mem_starts shown nonempty relative isStart
  simp only [decide_eq_true_eq]
  exact ⟨fun finds => (finds.of_shows shown shown' fits stands).1,
    fun finds => (finds.of_shows shown' shown fits stands).1⟩

theorem exists_text_of_mem_files (shown : view.Shows project t)
    (fits : ∀ entry ∈ t.entries, (project.down entry.1).Fits) (nonempty : t.entries ≠ [])
    (relative : ∀ name ∈ names, Relative project name) {path : Path}
    (found : path ∈ (scan view e project names).found.files) :
    ∃ names s, path = project.down names ∧ (project.down names).Fits ∧
      t.at? names = some (.text s) := by
  obtain ⟨root, isStart, inWalk⟩ := mem_files_scan.mp found
  obtain ⟨start, rfl, stands⟩ := exists_down_of_mem_starts shown nonempty relative isStart
  obtain ⟨-, names, s, rfl, isText⟩ := (mem_files_walk.mp inWalk).of_shows shown shown fits stands
  exact ⟨names, s, rfl, fits_of_stands fits (by rw [isText]; rfl), isText⟩

theorem skipped_scan_of_shows (shown : view.Shows project t)
    (fits : ∀ entry ∈ t.entries, (project.down entry.1).Fits) (nonempty : t.entries ≠ [])
    (relative : ∀ name ∈ names, Relative project name) :
    (scan view e project names).found.skipped = [] := by
  refine List.eq_nil_iff_forall_not_mem.mpr fun directory skipped => ?_
  rw [scan_eq, mem_pending Found.reading_skipped] at skipped
  obtain ⟨root, isStart, inWalk⟩ := skipped
  obtain ⟨start, rfl, stands⟩ := exists_down_of_mem_starts shown nonempty relative isStart
  exact not_skips_of_shows shown fits stands (mem_skipped_walk.mp inWalk)

end

/-- Where the manifest is within the limits, the usual directories are. -/
theorem relative_usualDirectories (manifest : (Manifest.pathIn project).Fits) :
    ∀ name ∈ usualDirectories, Relative project name := by
  have plain : ∀ name ∈ usualDirectories, Path.ofString name = ⟨.here, [name]⟩ ∧
      Disk.isEntryName name ∧ '\x00' ∉ name.toList ∧
      name.utf8ByteSize ≤ Manifest.fileName.utf8ByteSize := by
    decide +kernel
  intro name named
  obtain ⟨written, ordinary, clean, shorter⟩ := plain name named
  refine ⟨by rw [written], ?_⟩
  have start : startOf project name = project.child name := by
    rw [startOf, written]
    rfl
  rw [start]
  exact Path.Fits.of_size_le manifest ordinary clean shorter

theorem relative_effective (manifest : (Manifest.pathIn project).Fits) {directories : List String}
    (relative : ∀ name ∈ directories, Relative project name) :
    ∀ name ∈ effective directories, Relative project name := by
  unfold effective
  split
  · exact relative_usualDirectories manifest
  · exact relative

end DependencyAudit.Scan

import DependencyAudit.Proofs.Scan.Walk
import Mathlib.Data.List.Nodup

namespace DependencyAudit.Scan

open FileSystem

section

variable (view : View) (excluder : Exclusion.Excluder)

/-- The directories that a walk enters from a root: the root itself, and whatever a directory that
is entered and can be listed lists as a directory, unless it is the package cache or left out. -/
inductive Enters (root : Path) : Path → Prop
  | start : Enters root root
  | down {directory entries entry} :
      Enters root directory → view.list directory = .ok entries → entry ∈ entries →
      entry.kind = .directory → entry.name ≠ packageCache →
      excluder.excludes (directory.child entry.name) true = false →
      Enters root (directory.child entry.name)

/-- A directory that is entered lists this path as a file with the extension of a source file, and
it is not left out. -/
def Finds (root path : Path) : Prop :=
  ∃ directory entries entry, Enters view excluder root directory ∧
    view.list directory = .ok entries ∧ entry ∈ entries ∧ entry.kind = .file ∧
    path = directory.child entry.name ∧ path.suffix ∈ sourceSuffixes ∧
    excluder.excludes path false = false

/-- The directory is entered but cannot be listed. -/
def Skips (root directory : Path) : Prop :=
  Enters view excluder root directory ∧ ∃ refusal, view.list directory = .error refusal

end

variable {view : View} {excluder : Exclusion.Excluder}

theorem mem_inside {directory child : Path} :
    child ∈ inside view excluder directory ↔
      ∃ entries entry, view.list directory = .ok entries ∧ entry ∈ entries ∧
        entry.kind = .directory ∧ entry.name ≠ packageCache ∧
        excluder.excludes child true = false ∧ child = directory.child entry.name := by
  unfold inside
  cases list : view.list directory with
  | error refusal => simp
  | ok entries =>
    simp only [enteredIn, isEntered, List.mem_map, List.mem_reverse, List.mem_filter,
      Bool.and_eq_true, beq_iff_eq, bne_iff_ne, Bool.not_eq_true', Except.ok.injEq]
    constructor
    · intro holds
      obtain ⟨entry, ⟨member, ⟨isDirectory, other⟩, kept⟩, rfl⟩ := holds
      exact ⟨entries, entry, rfl, member, isDirectory, other, kept, rfl⟩
    · intro holds
      obtain ⟨_, entry, rfl, member, isDirectory, other, kept, rfl⟩ := holds
      exact ⟨entry, ⟨member, ⟨isDirectory, other⟩, kept⟩, rfl⟩

theorem mem_files_own {directory path : Path} :
    path ∈ (own view excluder directory).files ↔
      ∃ entries entry, view.list directory = .ok entries ∧ entry ∈ entries ∧ entry.kind = .file ∧
        path = directory.child entry.name ∧ path.suffix ∈ sourceSuffixes ∧
        excluder.excludes path false = false := by
  unfold own
  cases list : view.list directory with
  | error refusal => simp
  | ok entries =>
    simp only [sourcesIn, isSource, List.mem_map, List.mem_filter, Bool.and_eq_true, beq_iff_eq,
      decide_eq_true_eq, Bool.not_eq_true', Except.ok.injEq]
    constructor
    · intro holds
      obtain ⟨entry, ⟨member, ⟨isFile, source⟩, kept⟩, rfl⟩ := holds
      exact ⟨entries, entry, rfl, member, isFile, rfl, source, kept⟩
    · intro holds
      obtain ⟨_, entry, rfl, member, isFile, rfl, source, kept⟩ := holds
      exact ⟨entry, ⟨member, ⟨isFile, source⟩, kept⟩, rfl⟩

theorem mem_skipped_own {directory path : Path} :
    path ∈ (own view excluder directory).skipped ↔
      path = directory ∧ ∃ refusal, view.list directory = .error refusal := by
  unfold own
  cases list : view.list directory with
  | error refusal => simp
  | ok entries => simp

/-- Ways down can be put together. -/
theorem Enters.trans {root middle directory : Path} (first : Enters view excluder root middle)
    (second : Enters view excluder middle directory) : Enters view excluder root directory := by
  induction second with
  | start => exact first
  | down _ listed member isDirectory other kept ih =>
    exact .down ih listed member isDirectory other kept

theorem Enters.of_mem_inside {directory child : Path}
    (member : child ∈ inside view excluder directory) : Enters view excluder directory child := by
  obtain ⟨entries, entry, listed, inListing, isDirectory, other, kept, rfl⟩ := mem_inside.mp member
  exact .down .start listed inListing isDirectory other kept

theorem mem_pending {part : Found → List Path} (reading : Found.Reading part) {stack : List Path}
    {path : Path} :
    path ∈ part (pending view excluder stack) ↔
      ∃ root ∈ stack, path ∈ part (walk view excluder root) := by
  simp only [pending, reading.concat, List.mem_flatMap, List.mem_map, exists_exists_and_eq_and]

/-- A walk finds what there is in the directories that it enters, and nothing else. -/
theorem mem_walk {part : Found → List Path} (reading : Found.Reading part) {root path : Path} :
    path ∈ part (walk view excluder root) ↔
      ∃ directory, Enters view excluder root directory ∧
        path ∈ part (own view excluder directory) := by
  constructor
  · intro found
    induction ranked : view.rank root using Nat.strongRecOn generalizing root with
    | _ rank ih =>
      rw [walk_eq_own_append, reading.append] at found
      rcases List.mem_append.mp found with here | below
      · exact ⟨root, .start, here⟩
      · obtain ⟨child, entered, inChild⟩ := (mem_pending reading).mp below
        obtain ⟨directory, enters, there⟩ :=
          ih _ (ranked ▸ rank_lt_of_mem_inside entered) inChild rfl
        exact ⟨directory, (Enters.of_mem_inside entered).trans enters, there⟩
  · intro holds
    obtain ⟨directory, enters, there⟩ := holds
    have whole : path ∈ part (walk view excluder directory) := by
      rw [walk_eq_own_append, reading.append]
      exact List.mem_append_left _ there
    clear there
    induction enters with
    | start => exact whole
    | @down above entries entry _ listed member isDirectory other kept ih =>
      apply ih
      rw [walk_eq_own_append, reading.append]
      have entered : above.child entry.name ∈ inside view excluder above :=
        mem_inside.mpr ⟨entries, entry, listed, member, isDirectory, other, kept, rfl⟩
      exact List.mem_append_right _ ((mem_pending reading).mpr ⟨_, entered, whole⟩)

theorem mem_files_walk {root path : Path} :
    path ∈ (walk view excluder root).files ↔ Finds view excluder root path := by
  rw [mem_walk Found.reading_files]
  constructor
  · intro holds
    obtain ⟨directory, enters, here⟩ := holds
    obtain ⟨entries, entry, listed⟩ := mem_files_own.mp here
    exact ⟨directory, entries, entry, enters, listed⟩
  · intro holds
    obtain ⟨directory, entries, entry, enters, listed⟩ := holds
    exact ⟨directory, enters, mem_files_own.mpr ⟨entries, entry, listed⟩⟩

theorem mem_skipped_walk {root directory : Path} :
    directory ∈ (walk view excluder root).skipped ↔ Skips view excluder root directory := by
  rw [mem_walk Found.reading_skipped]
  constructor
  · intro holds
    obtain ⟨_, enters, here⟩ := holds
    obtain ⟨rfl, refused⟩ := mem_skipped_own.mp here
    exact ⟨enters, refused⟩
  · intro holds
    obtain ⟨enters, refused⟩ := holds
    exact ⟨directory, enters, mem_skipped_own.mpr ⟨rfl, refused⟩⟩

end DependencyAudit.Scan

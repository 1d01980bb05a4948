import DependencyAudit.Proofs.FileSystem.Listing
import DependencyAudit.Proofs.Path
import DependencyAudit.Proofs.Scan.Reach

namespace DependencyAudit.Scan

open FileSystem

variable {view : View} {excluder : Exclusion.Excluder}

theorem Enters.within {root directory : Path} (enters : Enters view excluder root directory) :
    root.Within directory := by
  induction enters with
  | start => exact .refl root
  | down _ _ _ _ _ _ ih => exact ih.trans (Path.within_child _ _)

theorem Finds.below {root path : Path} (finds : Finds view excluder root path) :
    root.Below path := by
  obtain ⟨directory, _, entry, enters, _, _, _, rfl, _⟩ := finds
  exact Path.below_child_iff.mpr enters.within

/-- Entries that a filter keeps have names of their own, so they stand at paths of their own. -/
theorem nodup_children {directory : Path} {entries : List Entry}
    (once : (entries.map Entry.name).Nodup) (keeps : Entry → Bool) :
    ((entries.filter keeps).map (directory.child ·.name)).Nodup := by
  have names : ((entries.filter keeps).map Entry.name).Nodup :=
    once.sublist (List.filter_sublist.map _)
  have paths := names.map (f := directory.child) fun _ _ => Path.child_inj
  rwa [List.map_map] at paths

theorem nodup_inside (once : view.ListsOnce) (directory : Path) :
    (inside view excluder directory).Nodup := by
  unfold inside
  split
  · exact .nil
  next listed =>
    rw [enteredIn, List.map_reverse, List.nodup_reverse]
    exact nodup_children (once listed) _

/-- The findings in a directory itself are apart from those below it, and what is found from a
directory stands within it: then a walk finds nothing twice. -/
theorem nodup_walk {part : Found → List Path} (reading : Found.Reading part)
    (once : view.ListsOnce) (ownOnce : ∀ d, (part (own view excluder d)).Nodup)
    (apart : ∀ d, ∀ path ∈ part (own view excluder d), ∀ child ∈ inside view excluder d,
      path ∉ part (walk view excluder child))
    (within : ∀ root, ∀ path ∈ part (walk view excluder root), root.Within path) (root : Path) :
    (part (walk view excluder root)).Nodup := by
  induction ranked : view.rank root using Nat.strongRecOn generalizing root with
  | _ rank ih =>
    have branches : ∀ first ∈ inside view excluder root, ∀ second ∈ inside view excluder root,
        first ≠ second →
        List.Disjoint (part (walk view excluder first)) (part (walk view excluder second)) := by
      intro first inFirst second inSecond different path foundFirst foundSecond
      obtain ⟨_, entry, _, _, _, _, _, rfl⟩ := mem_inside.mp inFirst
      obtain ⟨_, other, _, _, _, _, _, rfl⟩ := mem_inside.mp inSecond
      have same := (within _ path foundFirst).child_unique (within _ path foundSecond)
      exact different (by rw [same])
    have below : (part (pending view excluder (inside view excluder root))).Nodup := by
      rw [pending, reading.concat, List.flatMap_map, List.nodup_flatMap]
      refine ⟨?_, (nodup_inside once root).pairwise_of_forall_ne branches⟩
      intro child member
      exact ih _ (ranked ▸ rank_lt_of_mem_inside member) child rfl
    rw [walk_eq_own_append, reading.append]
    refine (ownOnce root).append below ?_
    intro path here there
    obtain ⟨child, member, found⟩ := (mem_pending reading).mp there
    exact apart root path here child member found

theorem nodup_files_walk (once : view.ListsOnce) (root : Path) :
    (walk view excluder root).files.Nodup := by
  refine nodup_walk Found.reading_files once ?_ ?_ ?_ root
  · intro d
    unfold own
    split
    · exact .nil
    next listed => exact nodup_children (once listed) _
  · intro d path here child member found
    obtain ⟨_, entry, _, _, _, rfl, _⟩ := mem_files_own.mp here
    obtain ⟨_, other, _, _, _, _, _, rfl⟩ := mem_inside.mp member
    have deep := (mem_files_walk.mp found).below.length_lt
    simp only [Path.length_names_child, Nat.lt_irrefl] at deep
  · intro d path found
    exact (mem_files_walk.mp found).below.within

theorem nodup_skipped_walk (once : view.ListsOnce) (root : Path) :
    (walk view excluder root).skipped.Nodup := by
  refine nodup_walk Found.reading_skipped once ?_ ?_ ?_ root
  · intro d
    unfold own
    split
    · exact List.nodup_singleton d
    · exact .nil
  · intro d path here child member found
    obtain ⟨-, refusal, refused⟩ := mem_skipped_own.mp here
    obtain ⟨_, _, listed, _⟩ := mem_inside.mp member
    simp only [refused, reduceCtorEq] at listed
  · intro d path skipped
    exact (mem_skipped_walk.mp skipped).1.within

end DependencyAudit.Scan

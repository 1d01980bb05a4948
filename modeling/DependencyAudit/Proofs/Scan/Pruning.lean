import DependencyAudit.Proofs.Exclusion.Below
import DependencyAudit.Proofs.FileSystem.Names
import DependencyAudit.Proofs.Scan.Exact

namespace DependencyAudit

namespace Scan

open FileSystem

variable {view : View} {root project : Path} {e : Exclusion.Excluder}

/-- What stands below a directory that is left out is left out. -/
def LeavesOutBelow (e : Exclusion.Excluder) (root : Path) : Prop :=
  ∀ {directory : Path}, OneLineFrom root directory → e.excludes directory true = true →
    ∀ {below : List String}, below ≠ [] → (∀ n ∈ below, IsName n) →
      e.excludes ⟨directory.anchor, directory.names ++ below⟩ false = true

theorem excludes_none (p : Path) (isDirectory : Bool) :
    (Exclusion.Excluder.none root).excludes p isDirectory = false := by
  unfold Exclusion.Excluder.excludes
  split <;> rfl

/-- Below its start, a walk enters no directory that is left out. -/
theorem Enters.kept {start directory : Path} (enters : Enters view e start directory) :
    directory = start ∨ e.excludes directory true = false := by
  cases enters with
  | start => exact .inl rfl
  | down _ _ _ _ _ kept => exact .inr kept

/-- The way to what a walk finds is written in names that directories list. -/
theorem Finds.exists_names {directory path : Path} (plain : view.NamesOnOneLine root)
    (finds : Finds view e directory path) :
    ∃ below, below ≠ [] ∧ (∀ n ∈ below, IsName n) ∧
      path = ⟨directory.anchor, directory.names ++ below⟩ := by
  obtain ⟨last, entries, entry, enters, listed, member, -, rfl, -⟩ := finds
  obtain ⟨way, areNames, rfl⟩ : ∃ way, (∀ n ∈ way, IsName n) ∧
      last = ⟨directory.anchor, directory.names ++ way⟩ := by
    clear listed
    induction enters with
    | start => exact ⟨[], by simp, by rw [List.append_nil]⟩
    | @down middle entries entry _ listed member _ _ _ ih =>
      obtain ⟨way, areNames, rfl⟩ := ih
      refine ⟨way ++ [entry.name], ?_, by rw [Path.child, List.append_assoc]⟩
      exact List.forall_mem_append.mpr
        ⟨areNames, List.forall_mem_singleton.mpr (plain.listed listed member)⟩
  refine ⟨way ++ [entry.name], by simp, ?_, by rw [Path.child, List.append_assoc]⟩
  exact List.forall_mem_append.mpr
    ⟨areNames, List.forall_mem_singleton.mpr (plain.listed listed member)⟩

/-- The files of a directory itself are those that the scan without patterns finds in it, less those
that are left out. -/
theorem files_own_eq (directory : Path) :
    (own view e directory).files =
      (own view (.none root) directory).files.filter fun p => !e.excludes p false := by
  unfold own
  cases view.list directory with
  | error refusal => rfl
  | ok entries =>
    simp only [sourcesIn, List.filter_map, List.filter_filter]
    congr 1
    refine List.filter_congr fun entry _ => ?_
    simp [isSource, excludes_none, Bool.and_comm]

/-- The directories that a walk goes on to are those of the walk without patterns, less those that
are left out. -/
theorem inside_eq (root directory : Path) :
    inside view e directory =
      (inside view (.none root) directory).filter fun p => !e.excludes p true := by
  unfold inside
  cases view.list directory with
  | error refusal => rfl
  | ok entries =>
    simp only [enteredIn, List.filter_map, List.filter_reverse, List.filter_filter]
    congr 2
    refine List.filter_congr fun entry _ => ?_
    simp [isEntered, excludes_none, Bool.and_comm]

theorem files_pending (e : Exclusion.Excluder) (stack : List Path) :
    (pending view e stack).files = stack.flatMap fun p => (walk view e p).files := by
  simp only [pending, Found.reading_files.concat, List.flatMap_map]

theorem files_walk (e : Exclusion.Excluder) (directory : Path) :
    (walk view e directory).files = (own view e directory).files ++
      (inside view e directory).flatMap fun p => (walk view e p).files := by
  rw [walk_eq_own_append, Found.files_append, files_pending]

/-- Passing over what contributes nothing changes nothing. -/
theorem flatMap_filter_eq {α β : Type} {keeps : α → Bool} {short full : α → List β} {items : List α}
    (kept : ∀ item ∈ items, keeps item = true → short item = full item)
    (dropped : ∀ item ∈ items, keeps item = false → full item = []) :
    (items.filter keeps).flatMap short = items.flatMap full := by
  induction items with
  | nil => rfl
  | cons item rest ih =>
    obtain ⟨keptHere, keptLater⟩ := List.forall_mem_cons.mp kept
    obtain ⟨droppedHere, droppedLater⟩ := List.forall_mem_cons.mp dropped
    rw [List.filter_cons, List.flatMap_cons]
    split
    next keep => rw [List.flatMap_cons, keptHere keep, ih keptLater droppedLater]
    next drop =>
      rw [droppedHere (by simpa using drop), ih keptLater droppedLater, List.nil_append]

/-- A walk that does not enter what is left out finds the files of the walk without patterns that
are not left out, in the same order. -/
theorem files_walk_eq (plain : view.NamesOnOneLine root) (leaves : LeavesOutBelow e root)
    {directory : Path} (oneLine : OneLineFrom root directory) :
    (walk view e directory).files =
      (walk view (.none root) directory).files.filter fun p => !e.excludes p false := by
  induction ranked : view.rank directory using Nat.strongRecOn generalizing directory with
  | _ rank ih =>
    rw [files_walk e, files_walk (.none root), List.filter_append, ← files_own_eq, inside_eq root,
      List.filter_flatMap]
    congr 1
    have isChild : ∀ child ∈ inside view (.none root) directory, OneLineFrom root child := by
      intro child member
      obtain ⟨entries, entry, listed, inListing, -, -, -, rfl⟩ := mem_inside.mp member
      exact oneLine.child (plain.listed listed inListing)
    refine flatMap_filter_eq ?_ ?_
    · intro child member _
      exact ih _ (ranked ▸ rank_lt_of_mem_inside member) (isChild child member) rfl
    · intro child member drops
      rw [List.filter_eq_nil_iff]
      intro path found
      obtain ⟨below, nonempty, areNames, rfl⟩ := (mem_files_walk.mp found).exists_names plain
      simp [leaves (isChild child member) (by simpa using drops) nonempty areNames]

/-- A scan with patterns is the scan without them, less the files that are left out. -/
structure Agrees (e : Exclusion.Excluder) (pruned whole : Outcome) : Prop where
  files : pruned.found.files = whole.found.files.filter fun p => !e.excludes p false
  refusal : pruned.refusal = whole.refusal

/-- Not entering a directory that is left out hides no file that the patterns would keep. -/
theorem scan_agrees (plain : view.NamesOnOneLine root) {settings commandLine : List String}
    (made : Exclusion.Excluder.ofLines root settings commandLine = .ok e)
    (reach : ∀ line ∈ settings ++ commandLine, Exclusion.ReachesDown line)
    (directories : List String) :
    Agrees e (scan view e project (effective directories))
      (scan view (.none root) project (effective directories)) where
  files := by
    have leaves : LeavesOutBelow e root := fun oneLine excluded _ nonempty areNames =>
      Exclusion.Excluder.excludes_below made reach oneLine nonempty areNames excluded
    simp only [scan_eq, files_pending, List.filter_flatMap]
    have walks : ∀ start ∈ starts view project (effective directories),
        (walk view e start).files =
          (walk view (.none root) start).files.filter fun p => !e.excludes p false := by
      intro start member
      have isDirectory := of_decide_eq_true (List.mem_filter.mp member).2
      exact files_walk_eq plain leaves (plain.directory isDirectory)
    exact List.flatMap_congr walks
  refusal := by simp only [scan_eq]

/-- A directory of generated code is left out with the source file in it. -/
theorem scan_agrees_of_generated :
    let tree : Memory := ⟨[((application.child "src").child "a.js", .file ""),
      (((application.child "src").child "generated").child "b.js", .file "")], []⟩
    tree.view.NamesOnOneLine application ∧ Exclusion.ReachesDown "generated/" ∧
      ∃ e, Exclusion.Excluder.ofLines application [] ["generated/"] = .ok e ∧
        Agrees e (scan tree.view e application (effective ["src"]))
          (scan tree.view (.none application) application (effective ["src"])) := by
  intro tree
  have plain := tree.namesOnOneLine (by decide +kernel) application
  have reach : Exclusion.ReachesDown "generated/" := ⟨by decide, by decide, by decide⟩
  cases made : Exclusion.Excluder.ofLines application [] ["generated/"] with
  | error fault =>
    have isOk : (Exclusion.Excluder.ofLines application [] ["generated/"]).isOk = true := by cbv
    rw [made] at isOk
    cases isOk
  | ok e =>
    refine ⟨plain, reach, e, rfl, scan_agrees plain made ?_ ["src"]⟩
    exact fun line member => List.mem_singleton.mp member ▸ reach

/-- The pattern of all that stands right in a directory leaves out the directories there, but it
does not match what stands in them. -/
theorem not_perm_files_of_loneStar :
    ¬ ∀ (view : View) (root project : Path) (settings commandLine directories : List String)
      (e : Exclusion.Excluder), view.NamesOnOneLine root →
      Exclusion.Excluder.ofLines root settings commandLine = .ok e →
      (∀ line ∈ settings ++ commandLine,
        (Text.trimStart line.toList).head? ≠ some '!' ∧ '[' ∉ line.toList) →
      (scan view e project (effective directories)).found.files.Perm
        ((scan view (.none root) project (effective directories)).found.files.filter
          fun p => !e.excludes p false) := by
  intro agrees
  let library := (application.child "src").child "lib"
  let file := library.child "x.js"
  let tree : Memory := ⟨[(file, .file "")], []⟩
  cases made : Exclusion.Excluder.ofLines application [] ["src/*"] with
  | error fault =>
    have isOk : (Exclusion.Excluder.ofLines application [] ["src/*"]).isOk = true := by cbv
    rw [made] at isOk
    cases isOk
  | ok e =>
    have verdicts : ((Exclusion.Excluder.ofLines application [] ["src/*"]).toOption.map fun e =>
        (e.excludes library true, e.excludes file false)) = some (true, false) := by cbv
    rw [made] at verdicts
    simp only [Except.toOption, Option.map_some, Option.some.injEq, Prod.mk.injEq] at verdicts
    obtain ⟨leavesOut, keeps⟩ := verdicts
    have perm := agrees tree.view application application [] ["src/*"] ["src"] e
      (tree.namesOnOneLine (by decide +kernel) application) made (by decide)
    have roots : starts tree.view application (effective ["src"]) = [application.child "src"] := by
      cbv
    simp only [scan_eq, roots, files_pending, List.flatMap_singleton] at perm
    have listed : tree.view.list (application.child "src") = .ok [⟨"lib", .directory⟩] := by cbv
    have enters : Enters tree.view (.none application) (application.child "src") library :=
      .down .start listed List.mem_cons_self rfl (by decide) (excludes_none _ _)
    have finds : Finds tree.view (.none application) (application.child "src") file :=
      ⟨library, [⟨"x.js", .file⟩], _, enters, by cbv, List.mem_cons_self, rfl, rfl,
        by decide +kernel, excludes_none _ _⟩
    have found := perm.mem_iff.mpr (List.mem_filter.mpr ⟨mem_files_walk.mpr finds, by simp [keeps]⟩)
    obtain ⟨directory, _, entry, enters, -, -, -, same, -⟩ := mem_files_walk.mp found
    obtain rfl := (Path.child_inj_left same).symm
    rcases enters.kept with isStart | kept
    · exact absurd isStart (by decide)
    · rw [leavesOut] at kept
      cases kept

end Scan

end DependencyAudit

import DependencyAudit.Proofs.Scan.Order

namespace DependencyAudit.Scan

open FileSystem

/-- The directory is a package cache, or it is left out. -/
def Forbidden (e : Exclusion.Excluder) (directory : Path) : Prop :=
  directory.name = packageCache ∨ e.excludes directory true = true

/-- Below the project, no forbidden directory stands above a path. -/
def Permitted (e : Exclusion.Excluder) (project path : Path) : Prop :=
  ∀ directory, project.Below directory → directory.Below path → ¬ Forbidden e directory

variable {view : View} {e : Exclusion.Excluder} {project start directory path : Path}

/-- A walk passes no forbidden directory on its way down from the start to one that it enters. -/
theorem Enters.not_forbidden (enters : Enters view e start directory) {passed : Path}
    (beyond : start.Below passed) (above : passed.Within directory) : ¬ Forbidden e passed := by
  induction enters with
  | start =>
    have down := beyond.length_lt
    have up := above.length_le
    omega
  | @down middle entries entry _ _ _ _ notCache kept ih =>
    rcases Path.within_iff.mp above with rfl | strictly
    · rintro (isCache | leftOut)
      · exact notCache (by simpa [Path.name, Path.child] using isCache)
      · rw [kept] at leftOut
        cases leftOut
    · exact ih (Path.below_child_iff.mp strictly)

theorem Finds.not_forbidden (finds : Finds view e start path) {passed : Path}
    (beyond : start.Below passed) (above : passed.Below path) : ¬ Forbidden e passed := by
  obtain ⟨_, _, _, enters, _, _, _, rfl, _⟩ := finds
  exact enters.not_forbidden beyond (Path.below_child_iff.mp above)

/-- A forbidden directory above a file that is found is the start of the walk or stands above it. -/
theorem Finds.within_start (finds : Finds view e start path) (above : directory.Below path)
    (forbidden : Forbidden e directory) : directory.Within start := by
  rcases above.within.within_or_below finds.below.within with within | beyond
  · exact within
  · exact absurd forbidden (finds.not_forbidden beyond above)

/-- What a scan keeps away from. -/
structure KeepsAway (view : View) (e : Exclusion.Excluder) (project : Path) (names : List String)
    (found : Found) : Prop where
  /-- What a walk enters is reached without passing a forbidden directory below the start. -/
  entered : ∀ start ∈ starts view project names, ∀ directory, Enters view e start directory →
    ∀ passed, start.Below passed → passed.Within directory → ¬ Forbidden e passed
  /-- A file below a forbidden directory is found only from a start in that directory. -/
  within_start : ∀ path ∈ found.files, ∀ directory, directory.Below path → Forbidden e directory →
    ∃ start ∈ starts view project names, Finds view e start path ∧ directory.Within start
  /-- No file is found below a forbidden directory exactly if no start that leads to a file is one,
  or stands below one. -/
  permitted_iff : (∀ path ∈ found.files, Permitted e project path) ↔
    ∀ start ∈ starts view project names, (∃ path, Finds view e start path) →
      ∀ directory, project.Below directory → directory.Within start → ¬ Forbidden e directory

/-- A scan enters forbidden directories only where it is told to start in them. -/
theorem scan_keepsAway (view : View) (e : Exclusion.Excluder) (project : Path)
    (directories : List String) :
    KeepsAway view e project (effective directories)
      (scan view e project (effective directories)).found where
  entered _ _ _ enters _ beyond above := enters.not_forbidden beyond above
  within_start := by
    intro path found directory above forbidden
    obtain ⟨start, isStart, inWalk⟩ := mem_files_scan.mp found
    have finds := mem_files_walk.mp inWalk
    exact ⟨start, isStart, finds, finds.within_start above forbidden⟩
  permitted_iff := by
    constructor
    · intro permitted start isStart ⟨path, finds⟩ directory inProject within
      have found := mem_files_scan.mpr ⟨start, isStart, mem_files_walk.mpr finds⟩
      exact permitted path found directory inProject (within.trans_below finds.below)
    · intro clear path found directory inProject above forbidden
      obtain ⟨start, isStart, inWalk⟩ := mem_files_scan.mp found
      have finds := mem_files_walk.mp inWalk
      exact clear start isStart ⟨path, finds⟩ directory inProject
        (finds.within_start above forbidden) forbidden

/-- A scan that starts at a directory that holds a source file finds the file, unless the file
itself is left out. -/
theorem mem_files_of_start (view : View) (e : Exclusion.Excluder) (project : Path)
    (name file : String)
    (isStart : starts view project (effective [name]) = [project.child name])
    (listed : view.list (project.child name) = .ok [⟨file, .file⟩])
    (isSource : ((project.child name).child file).suffix ∈ sourceSuffixes)
    (kept : e.excludes ((project.child name).child file) false = false) :
    (project.child name).child file ∈ (scan view e project (effective [name])).found.files := by
  refine mem_files_scan.mpr ⟨project.child name, by rw [isStart]; exact List.mem_cons_self, ?_⟩
  exact mem_files_walk.mpr ⟨_, _, ⟨file, .file⟩, .start, listed, List.mem_cons_self, rfl, rfl,
    isSource, kept⟩

/-- A scan that is told to start at the package cache enters it, and so does one that is told to
start at a directory that is left out and of which a later pattern takes a file back in. -/
theorem not_permitted_of_forbiddenStart :
    (¬ ∀ (view : View) (e : Exclusion.Excluder) (project : Path) (directories : List String),
      ∀ path ∈ (scan view e project (effective directories)).found.files,
        ∀ directory, project.Below directory → directory.Below path →
          directory.name ≠ packageCache) ∧
    ¬ ∀ (view : View) (e : Exclusion.Excluder) (project : Path) (lines directories : List String),
      Exclusion.Excluder.ofLines project [] lines = .ok e →
      ∀ path ∈ (scan view e project (effective directories)).found.files,
        ∀ directory, project.Below directory → directory.Below path →
          e.excludes directory true = false := by
  constructor
  · intro permitted
    let tree : Memory := ⟨[((application.child packageCache).child "a.js", .file "")], []⟩
    have found := mem_files_of_start tree.view (.none application) application packageCache "a.js"
      (by cbv) (by cbv) (by decide +kernel) (by cbv)
    exact permitted _ _ _ _ _ found (application.child packageCache) (Path.below_child _ _)
      (Path.below_child _ _) (by decide)
  · intro permitted
    let tree : Memory := ⟨[((application.child "src").child "a.js", .file "")], []⟩
    have verdicts : ((Exclusion.Excluder.ofLines application [] ["src/", "!src/a.js"]).toOption.map
        fun e => (e.excludes (application.child "src") true,
          e.excludes ((application.child "src").child "a.js") false)) = some (true, false) := by
      cbv
    obtain ⟨e, made, verdicts⟩ := Except.exists_ok_of_map_toOption verdicts
    obtain ⟨leavesOut, keeps⟩ := Prod.mk.inj verdicts
    have found := mem_files_of_start tree.view e application "src" "a.js" (by cbv) (by cbv)
      (by decide +kernel) keeps
    have kept := permitted _ _ _ _ _ made _ found (application.child "src") (Path.below_child _ _)
      (Path.below_child _ _)
    rw [leavesOut] at kept
    cases kept

end DependencyAudit.Scan

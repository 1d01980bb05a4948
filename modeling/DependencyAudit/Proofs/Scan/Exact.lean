import DependencyAudit.Proofs.Scan.Once
import Mathlib

namespace DependencyAudit.Scan

open FileSystem

section

variable (view : View) (excluder : Exclusion.Excluder) (project : Path)

/-- The directory that a name of the list stands for. -/
def startOf (name : String) : Path := project.join (.ofString name)

/-- Whether a path can be looked at, be a directory there or not. -/
def Answers (path : Path) : Prop := ∃ answer, view.isDirectory path = .ok answer

/-- The directories at which a scan starts: those of the names that lead to one, up to the first
name that cannot be looked at. -/
def starts (names : List String) : List Path :=
  ((names.map (startOf project)).takeWhile fun path => (view.isDirectory path).isOk).filter
    fun path => view.isDirectory path = .ok true

/-- Why a name cannot be looked at, if it cannot. -/
def refusalAt (name : String) : Option Refusal :=
  match view.isDirectory (startOf project name) with
  | .error refusal => some refusal
  | .ok _ => none

end

variable {view : View} {excluder : Exclusion.Excluder} {project : Path}

theorem refusalAt_eq_some_iff {name : String} {refusal : Refusal} :
    refusalAt view project name = some refusal ↔
      view.isDirectory (startOf project name) = .error refusal := by
  unfold refusalAt
  cases view.isDirectory (startOf project name) with
  | error other => simp
  | ok answer => simp

/-- The scan goes no further than the first name that cannot be looked at. -/
theorem scan_of_refused {name : String} {refusal : Refusal}
    (refused : view.isDirectory (startOf project name) = .error refusal) (rest : List String) :
    scan view excluder project (name :: rest) = ⟨.none, some refusal⟩ := by
  unfold startOf at refused
  simp only [scan, refused]

theorem scan_of_absent {name : String}
    (absent : view.isDirectory (startOf project name) = .ok false) (rest : List String) :
    scan view excluder project (name :: rest) = scan view excluder project rest := by
  unfold startOf at absent
  simp only [scan, absent]

theorem scan_of_directory {name : String}
    (stands : view.isDirectory (startOf project name) = .ok true) (rest : List String) :
    scan view excluder project (name :: rest) =
      ⟨walk view excluder (startOf project name) ++ (scan view excluder project rest).found,
        (scan view excluder project rest).refusal⟩ := by
  unfold startOf at stands ⊢
  simp only [scan, stands]

/-- A scan is the walks from its starts, one after the other. -/
theorem scan_eq (names : List String) :
    scan view excluder project names =
      ⟨pending view excluder (starts view project names),
        names.findSome? (refusalAt view project)⟩ := by
  induction names with
  | nil => rfl
  | cons name rest ih =>
    unfold starts at ih ⊢
    rw [List.map_cons, List.takeWhile_cons, List.findSome?_cons, refusalAt]
    cases asked : view.isDirectory (startOf project name) with
    | error refusal =>
      rw [scan_of_refused asked]
      simp [Except.isOk, Except.toBool, pending]
    | ok answer =>
      cases answer with
      | false =>
        rw [scan_of_absent asked, ih]
        simp [asked, Except.isOk, Except.toBool]
      | true =>
        rw [scan_of_directory asked, ih]
        simp [asked, Except.isOk, Except.toBool, pending_cons]

/-- A scan goes through to its end exactly where every name can be looked at. -/
theorem refusal_scan_eq_none_iff {names : List String} :
    (scan view excluder project names).refusal = none ↔
      ∀ name ∈ names, Answers view (startOf project name) := by
  rw [scan_eq, List.findSome?_eq_none_iff]
  refine forall₂_congr fun name _ => ?_
  unfold refusalAt Answers
  cases view.isDirectory (startOf project name) <;> simp

theorem starts_of_answers {names : List String}
    (answers : ∀ name ∈ names, Answers view (startOf project name)) :
    starts view project names =
      (names.map (startOf project)).filter fun path => view.isDirectory path = .ok true := by
  unfold starts
  rw [List.takeWhile_eq_self_iff.2]
  intro path member
  obtain ⟨name, named, rfl⟩ := List.mem_map.mp member
  obtain ⟨answer, asked⟩ := answers name named
  rw [asked]
  rfl

open Classical in
/-- What is found without repetition in every walk is found as often as walks find it. -/
theorem count_pending {part : Found → List Path} (reading : Found.Reading part)
    (once : ∀ root, (part (walk view excluder root)).Nodup) (stack : List Path) (path : Path) :
    (part (pending view excluder stack)).count path =
      stack.countP fun root => path ∈ part (walk view excluder root) := by
  induction stack with
  | nil => simp [pending, reading.none]
  | cons root rest ih =>
    rw [pending_cons, reading.append, List.count_append, ih, List.countP_cons, (once root).count]
    simp only [decide_eq_true_eq]
    omega

/-- Another view in which some directories cannot be listed, and all else is as it was. -/
structure FailsAt (view broken : View) (failing : Path → Prop) : Prop where
  refused : ∀ directory, failing directory → ∃ refusal, broken.list directory = .error refusal
  list : ∀ directory, ¬ failing directory → broken.list directory = view.list directory
  isDirectory : broken.isDirectory = view.isDirectory

/-- Whether a path stands below none of these directories. -/
def Clear (failing : Path → Prop) (path : Path) : Prop :=
  ∀ directory, failing directory → ¬ directory.Below path

theorem Clear.above {failing : Path → Prop} {directory : Path} {name : String}
    (clear : Clear failing (directory.child name)) :
    ¬ failing directory ∧ Clear failing directory :=
  ⟨fun fails => clear directory fails (Path.below_child directory name),
    fun other fails below =>
      clear other fails (below.trans_within (Path.within_child directory name))⟩

theorem Enters.of_list_eq {other : View} {failing : Path → Prop} {root directory : Path}
    (same : ∀ path, ¬ failing path → other.list path = view.list path)
    (enters : Enters view excluder root directory) (clear : Clear failing directory) :
    Enters other excluder root directory := by
  induction enters with
  | start => exact .start
  | down _ listed member isDirectory other kept ih =>
    obtain ⟨apart, above⟩ := clear.above
    exact .down (ih above) ((same _ apart).trans listed) member isDirectory other kept

theorem Finds.of_list_eq {other : View} {failing : Path → Prop} {root path : Path}
    (same : ∀ path, ¬ failing path → other.list path = view.list path)
    (finds : Finds view excluder root path) (clear : Clear failing path) :
    Finds other excluder root path := by
  obtain ⟨directory, entries, entry, enters, listed, member, isFile, rfl, source⟩ := finds
  obtain ⟨apart, above⟩ := clear.above
  exact ⟨directory, entries, entry, enters.of_list_eq same above,
    (same directory apart).trans listed, member, isFile, rfl, source⟩

/-- Listings that fail cost a walk nothing but what stands below these directories. -/
theorem FailsAt.finds_iff {broken : View} {failing : Path → Prop} {root path : Path}
    (fails : FailsAt view broken failing) (clear : Clear failing path) :
    Finds broken excluder root path ↔ Finds view excluder root path := by
  constructor
  · intro finds
    exact finds.of_list_eq (fun other apart => (fails.list other apart).symm) clear
  · intro finds
    exact finds.of_list_eq fails.list clear

theorem FailsAt.enters_iff {broken : View} {failing : Path → Prop} {root directory : Path}
    (fails : FailsAt view broken failing) (clear : Clear failing directory) :
    Enters broken excluder root directory ↔ Enters view excluder root directory := by
  constructor
  · intro enters
    exact enters.of_list_eq (fun other apart => (fails.list other apart).symm) clear
  · intro enters
    exact enters.of_list_eq fails.list clear

theorem FailsAt.skips_iff {broken : View} {failing : Path → Prop} {root directory : Path}
    (fails : FailsAt view broken failing) (clear : Clear failing directory) :
    Skips broken excluder root directory ↔
      Enters view excluder root directory ∧
        (failing directory ∨ ∃ refusal, view.list directory = .error refusal) := by
  unfold Skips
  rw [fails.enters_iff clear]
  refine and_congr_right fun _ => ?_
  by_cases here : failing directory
  · simp only [here, fails.refused directory here, true_or]
  · simp only [here, fails.list directory here, false_or]

theorem FailsAt.listsOnce {broken : View} {failing : Path → Prop}
    (fails : FailsAt view broken failing) (once : view.ListsOnce) : broken.ListsOnce := by
  intro directory entries listed
  by_cases here : failing directory
  · obtain ⟨refusal, refused⟩ := fails.refused directory here
    rw [refused] at listed
    cases listed
  · exact once ((fails.list directory here).symm.trans listed)

theorem FailsAt.starts_eq {broken : View} {failing : Path → Prop}
    (fails : FailsAt view broken failing) (names : List String) :
    starts broken project names = starts view project names := by
  simp only [starts, fails.isDirectory]

open Classical in
theorem count_files_scan (once : view.ListsOnce) (names : List String) (path : Path) :
    (scan view excluder project names).found.files.count path =
      (starts view project names).countP (Finds view excluder · path) := by
  rw [scan_eq, count_pending Found.reading_files (nodup_files_walk once)]
  simp only [mem_files_walk]

open Classical in
theorem count_skipped_scan (once : view.ListsOnce) (names : List String) (directory : Path) :
    (scan view excluder project names).found.skipped.count directory =
      (starts view project names).countP (Skips view excluder · directory) := by
  rw [scan_eq, count_pending Found.reading_skipped (nodup_skipped_walk once)]
  simp only [mem_skipped_walk]

open Classical in
/-- What an exact scan of the directories with these names comes to. -/
structure Exact (view : View) (excluder : Exclusion.Excluder) (project : Path)
    (names : List String) (outcome : Outcome) : Prop where
  /-- The scan goes through to its end exactly where every name can be looked at. -/
  refusal_eq_none_iff : outcome.refusal = none ↔ ∀ name ∈ names, Answers view (startOf project name)
  /-- Otherwise it ends at the first name that cannot be looked at, for the reason given there. -/
  refusal_eq : outcome.refusal = names.findSome? (refusalAt view project)
  /-- A scan that goes through starts at all names that lead to a directory. -/
  starts_eq : outcome.refusal = none → starts view project names =
    (names.map (startOf project)).filter fun path => view.isDirectory path = .ok true
  /-- The loop over the stack of a walk always ends, and with what the scan has found. -/
  terminates : WellFounded fun after before : List Path × Found => Turn view excluder before after
  loops : ∃ findings,
    List.Forall₂ (fun root found =>
      Relation.ReflTransGen (Turn view excluder) ([root], .none) ([], found))
      (starts view project names) findings ∧ outcome.found = Found.concat findings
  /-- Each file is found as often as a start leads to it. -/
  count_files : ∀ path, outcome.found.files.count path =
    (starts view project names).countP (Finds view excluder · path)
  /-- Each directory that cannot be listed is noted as often as a start leads to it. -/
  count_skipped : ∀ directory, outcome.found.skipped.count directory =
    (starts view project names).countP (Skips view excluder · directory)
  /-- If more listings fail, nothing is lost or won but below these directories. -/
  count_broken : ∀ broken failing, FailsAt view broken failing → ∀ path, Clear failing path →
    (scan broken excluder project names).found.files.count path = outcome.found.files.count path ∧
      (¬ failing path → (scan broken excluder project names).found.skipped.count path =
        outcome.found.skipped.count path)

/-- A scan is exact. -/
theorem scan_exact (once : view.ListsOnce) (excluder : Exclusion.Excluder) (project : Path)
    (directories : List String) :
    Exact view excluder project (effective directories)
      (scan view excluder project (effective directories)) where
  refusal_eq_none_iff := refusal_scan_eq_none_iff
  refusal_eq := by rw [scan_eq]
  starts_eq ended := starts_of_answers (refusal_scan_eq_none_iff.mp ended)
  terminates := wellFounded_turn
  loops := by
    refine ⟨(starts view project (effective directories)).map (walk view excluder), ?_, ?_⟩
    · rw [List.forall₂_map_right_iff, List.forall₂_same]
      intro root _
      exact (turns_iff root _).mpr rfl
    · rw [scan_eq]
      rfl
  count_files := count_files_scan once _
  count_skipped := count_skipped_scan once _
  count_broken := by
    intro broken failing fails path clear
    constructor
    · rw [count_files_scan once, count_files_scan (fails.listsOnce once), fails.starts_eq]
      refine List.countP_congr fun root _ => ?_
      simp only [decide_eq_true_eq]
      exact fails.finds_iff clear
    · intro apart
      rw [count_skipped_scan once, count_skipped_scan (fails.listsOnce once), fails.starts_eq]
      refine List.countP_congr fun root _ => ?_
      simp only [decide_eq_true_eq]
      rw [fails.skips_iff clear, or_iff_right apart]
      rfl

/-- A project for scans of it. -/
def application : Path := ⟨.root, ["work", "app"]⟩

/-- The one source file of that project. -/
def onlySource : Path := (application.child "src").child "a.js"

/-- Two equal names lead to the file twice. -/
theorem scan_exact_of_equal_names :
    let tree : Memory := ⟨[(onlySource, .file "")], []⟩
    tree.view.ListsOnce ∧
      (scan tree.view (.none application) application ["src", "src"]).found.files.count
        onlySource = 2 := by
  intro tree
  refine ⟨tree.listsOnce, ?_⟩
  have roots : starts tree.view application (effective ["src", "src"]) =
      [application.child "src", application.child "src"] := by
    cbv
  have listed : tree.view.list (application.child "src") = .ok [⟨"a.js", .file⟩] := by cbv
  have finds : Finds tree.view (.none application) (application.child "src") onlySource :=
    ⟨application.child "src", _, ⟨"a.js", .file⟩, .start, listed, List.mem_singleton_self _, rfl,
      rfl, by decide +kernel, by cbv⟩
  have counted := (scan_exact tree.listsOnce (.none application) application
    ["src", "src"]).count_files onlySource
  rw [roots] at counted
  refine counted.trans ?_
  simp [finds]

/-- A name that is one byte too long for a disk. -/
def longName : String := String.ofList (List.replicate (nameLimit + 1) 'x')

theorem startOf_longName : startOf application longName = application.child longName := by
  rw [startOf, Path.ofString_of_plain (by simp [longName]) (by decide +kernel) (by decide +kernel)]
  rfl

theorem isDirectory_longName (d : Disk) (leads : d.locate application = .ok ["work", "app"])
    (stands : d.node? ["work", "app"] = some .directory) :
    d.view.isDirectory (application.child longName) =
      .error (.nameTooLong (application.child longName).toText) := by
  have size : longName.utf8ByteSize = nameLimit + 1 := by
    rw [longName, String.utf8ByteSize_ofList]
    decide +kernel
  refine Disk.isDirectory_of_long leads stands longName (by decide +kernel) ?_ ?_ ?_
  · rw [size]
    exact Nat.lt_succ_self _
  · have text : (application.child longName).toText =
        "/" ++ ("work" ++ "/" ++ ("app" ++ "/" ++ longName)) := by
      simp [Path.toText, Path.child, application, Path.anchorText, String.intercalate_cons_cons]
    rw [text]
    simp only [String.utf8ByteSize_append, size]
    decide +kernel
  · simp [Disk.hasNul, application, Path.child, longName]

/-- The project on a disk. -/
def onlySourceDisk : Disk :=
  ⟨[(["work", "app", "src", "a.js"], .file (.text ""))], ["work", "app"]⟩

theorem scan_of_longName (names : List String) :
    scan onlySourceDisk.view (.none application) application (longName :: names) =
      ⟨.none, some (.nameTooLong (application.child longName).toText)⟩ := by
  have refused : onlySourceDisk.view.isDirectory (startOf application longName) =
      .error (.nameTooLong (application.child longName).toText) := by
    rw [startOf_longName]
    exact isDirectory_longName onlySourceDisk (by cbv) (by cbv)
  exact scan_of_refused refused names

theorem finds_onlySource :
    Finds onlySourceDisk.view (.none application) (startOf application "src") onlySource := by
  have start : startOf application "src" = application.child "src" := by decide +kernel
  have listed : onlySourceDisk.view.list (application.child "src") = .ok [⟨"a.js", .file⟩] := by
    cbv
  rw [start]
  exact ⟨application.child "src", _, ⟨"a.js", .file⟩, .start, listed, List.mem_singleton_self _,
    rfl, rfl, by decide +kernel, by cbv⟩

open Classical in
/-- A name that is too long leads to no directory, but it is not passed over: the scan ends there,
and the file to which the next name leads is not found. -/
theorem not_count_files_of_longName :
    ¬ ∀ path,
      (scan onlySourceDisk.view (.none application) application
        (effective [longName, "src"])).found.files.count path =
      (((effective [longName, "src"]).map (startOf application)).filter
        fun root => onlySourceDisk.view.isDirectory root = .ok true).countP
          (Finds onlySourceDisk.view (.none application) · path) := by
  intro counts
  have counted := counts onlySource
  have names : effective [longName, "src"] = [longName, "src"] := if_neg (List.cons_ne_nil _ _)
  have isDirectory : onlySourceDisk.view.isDirectory (startOf application "src") = .ok true := by
    cbv
  rw [names, scan_of_longName] at counted
  have led : 0 < (([longName, "src"].map (startOf application)).filter
      fun root => onlySourceDisk.view.isDirectory root = .ok true).countP
        (Finds onlySourceDisk.view (.none application) · onlySource) := by
    refine List.countP_pos_iff.mpr ⟨startOf application "src", ?_, by simpa using finds_onlySource⟩
    exact List.mem_filter.mpr ⟨by simp, by simpa using isDirectory⟩
  rw [← counted] at led
  exact Nat.lt_irrefl _ led

end DependencyAudit.Scan

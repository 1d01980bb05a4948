import DependencyAudit.Proofs.Manifest.Loading
import DependencyAudit.Proofs.Scan.Exact
import Mathlib

namespace DependencyAudit

/-- The text of the file refers to the package of this name. -/
def RefersAt (view : FileSystem.View) (path : Path) (name : Name) : Prop :=
  ∃ text, view.read path = .ok text ∧ ∃ reference ∈ Import.references text,
    name = .ofString reference

/-- What the result and the statistics of scanned files come to, for a set of declared names. -/
structure Reconciles (view : FileSystem.View) (declared : Name → Prop) (found : Scan.Found)
    (result : Result) (statistics : Statistics) : Prop where
  used_ascending : result.used.Pairwise (· < ·)
  mem_used : ∀ name,
    name ∈ result.used ↔ declared name ∧ ∃ path ∈ found.files, RefersAt view path name
  unused_ascending : result.unused.Pairwise (· < ·)
  mem_unused : ∀ name,
    name ∈ result.unused ↔ declared name ∧ ¬ ∃ path ∈ found.files, RefersAt view path name
  total_eq : {name | declared name}.encard = result.total
  total_split : result.used.length + result.unused.length = result.total
  filesScanned_eq : statistics.filesScanned = found.files.length
  /-- Each file counts with the number of different names that it refers to. -/
  referencesFound_eq :
    statistics.referencesFound =
      (found.files.map fun path => {name | RefersAt view path name}.encard).sum
  skipped_eq : statistics.skipped = found.skipped.map Path.toText

theorem encard_refersAt {view : FileSystem.View} {path : Path} {text : String}
    (read : view.read path = .ok text) :
    {name | RefersAt view path name}.encard = (Import.references text).length := by
  have names : {name | RefersAt view path name} =
      Name.ofString '' {reference | reference ∈ Import.references text} := by
    ext name
    simp [RefersAt, read, eq_comm]
  rw [names, Name.ofString_injective.encard_image]
  exact Names.encard_of_pairwise (Names.pairwise_ascending _)

namespace Result

variable {declared referred : List Name}

theorem mem_used_ofNames {name : Name} :
    name ∈ (ofNames declared referred).used ↔ name ∈ declared ∧ name ∈ referred := by
  simp [ofNames]

theorem mem_unused_ofNames {name : Name} :
    name ∈ (ofNames declared referred).unused ↔ name ∈ declared ∧ name ∉ referred := by
  simp [ofNames]

/-- The used and the unused names are the declared ones, taken apart. -/
theorem length_used_add_unused :
    (ofNames declared referred).used.length + (ofNames declared referred).unused.length =
      (ofNames declared referred).total := by
  have apart := List.length_eq_length_filter_add (l := Names.ascending declared) (· ∈ referred)
  simpa [ofNames] using apart.symm

end Result

namespace Analyzer

open FileSystem

variable {view : View}

/-- Files that can all be read are read one after the other. -/
theorem readAll_eq_ok_iff {files : List Path} {references : List (List String)} :
    readAll view files = .ok references ↔
      List.Forall₂ (fun path found => ∃ text, view.read path = .ok text ∧
        found = Import.references text) files references := by
  induction files generalizing references with
  | nil =>
    simp only [readAll, Except.ok.injEq, List.forall₂_nil_left_iff]
    exact eq_comm
  | cons path rest ih =>
    unfold readAll
    cases read : view.read path with
    | error refusal => simp [List.forall₂_cons_left_iff, read]
    | ok text =>
      simp only [Except.map_eq_ok_iff, ih, List.forall₂_cons_left_iff, read, Except.ok.injEq,
        exists_eq_left']
      constructor
      · intro holds
        obtain ⟨others, all, rfl⟩ := holds
        exact ⟨_, others, rfl, all, rfl⟩
      · intro holds
        obtain ⟨_, others, rfl, all, rfl⟩ := holds
        exact ⟨others, all, rfl⟩

/-- The failure at a file that cannot be read. -/
def unreadable? (view : View) (path : Path) : Option Failure :=
  match view.read path with
  | .error refusal => some (.unreadableSource path refusal.reason)
  | .ok _ => none

/-- The first file that cannot be read ends it. -/
theorem readAll_eq_error_iff {files : List Path} {failure : Failure} :
    readAll view files = .error failure ↔ files.findSome? (unreadable? view) = some failure := by
  induction files with
  | nil => simp [readAll]
  | cons path rest ih =>
    rw [readAll, List.findSome?_cons, unreadable?]
    cases view.read path with
    | error refusal => simp
    | ok text => simp only [Except.map_eq_error_iff, ih]

theorem unreadable?_eq_some_iff {path : Path} {failure : Failure} :
    unreadable? view path = some failure ↔ ∃ refusal, view.read path = .error refusal ∧
      failure = .unreadableSource path refusal.reason := by
  unfold unreadable?
  cases view.read path with
  | error refusal => simp [eq_comm]
  | ok text => simp

theorem exists_refusal_of_readAll {files : List Path} {failure : Failure}
    (failed : readAll view files = .error failure) :
    ∃ path ∈ files, ∃ refusal, view.read path = .error refusal ∧
      failure = .unreadableSource path refusal.reason := by
  obtain ⟨path, member, fails⟩ := List.exists_of_findSome?_eq_some (readAll_eq_error_iff.mp failed)
  exact ⟨path, member, unreadable?_eq_some_iff.mp fails⟩

theorem exists_text_of_readAll {files : List Path} {references : List (List String)}
    (read : readAll view files = .ok references) {path : Path} (member : path ∈ files) :
    ∃ text, view.read path = .ok text := by
  have pairs := readAll_eq_ok_iff.mp read
  clear read
  induction pairs with
  | nil => cases member
  | cons first _ ih =>
    rcases List.mem_cons.mp member with rfl | later
    · obtain ⟨text, readHere, _⟩ := first
      exact ⟨text, readHere⟩
    · exact ih later

theorem mem_flatten_of_readAll {files : List Path} {references : List (List String)}
    (read : readAll view files = .ok references) {name : Name} :
    name ∈ references.flatten.map Name.ofString ↔ ∃ path ∈ files, RefersAt view path name := by
  have pairs := readAll_eq_ok_iff.mp read
  clear read
  induction pairs with
  | nil => simp
  | cons first _ ih =>
    obtain ⟨text, readHere, rfl⟩ := first
    simp only [List.flatten_cons, List.map_append, List.mem_append, ih]
    simp [RefersAt, readHere, eq_comm]

theorem length_flatten_of_readAll {files : List Path} {references : List (List String)}
    (read : readAll view files = .ok references) :
    (references.flatten.length : ℕ∞) =
      (files.map fun path => {name | RefersAt view path name}.encard).sum := by
  have pairs := readAll_eq_ok_iff.mp read
  clear read
  induction pairs with
  | nil => rfl
  | cons first _ ih =>
    obtain ⟨text, readHere, rfl⟩ := first
    rw [List.flatten_cons, List.length_append, List.map_cons, List.sum_cons,
      encard_refersAt readHere, ← ih, Nat.cast_add]

theorem analyze_eq_ok_iff {a : Analyzer} {answer : Result × Statistics} :
    a.analyze view = .ok answer ↔
      ∃ references, readAll view (a.scan view).found.files = .ok references ∧
        (a.scan view).refusal = none ∧ a.conclude (a.scan view).found references = answer := by
  unfold analyze
  rw [Except.bind_eq_ok_iff]
  refine exists_congr fun references => and_congr_right fun _ => ?_
  cases (a.scan view).refusal with
  | none => simp [pure, Except.pure]
  | some refusal => simp [throw, throwThe, MonadExceptOf.throw]

theorem analyze_eq_error_iff {a : Analyzer} {failure : Failure} :
    a.analyze view = .error failure ↔
      readAll view (a.scan view).found.files = .error failure ∨
        ∃ references, readAll view (a.scan view).found.files = .ok references ∧
          ∃ refusal, (a.scan view).refusal = some refusal ∧ failure = .access refusal := by
  unfold analyze
  rw [Except.bind_eq_error_iff]
  refine or_congr_right (exists_congr fun references => and_congr_right fun _ => ?_)
  cases (a.scan view).refusal with
  | none => simp [pure, Except.pure]
  | some refusal => simp [throw, throwThe, MonadExceptOf.throw, eq_comm]

theorem filesRead_of_readAll {files : List Path} {references : List (List String)}
    (read : readAll view files = .ok references) : filesRead view files = files := by
  induction files generalizing references with
  | nil => rfl
  | cons path rest ih =>
    rw [readAll] at read
    rw [filesRead]
    cases there : view.read path with
    | error refusal =>
      rw [there] at read
      cases read
    | ok text =>
      rw [there] at read
      obtain ⟨others, later, -⟩ := Except.map_eq_ok_iff.mp read
      exact congrArg (path :: ·) (ih later)

/-- An analysis that goes through reads all files that the scan finds. -/
theorem filesRead_of_analyze {a : Analyzer} {answer : Result × Statistics}
    (analyzed : a.analyze view = .ok answer) :
    filesRead view (a.scan view).found.files = (a.scan view).found.files := by
  obtain ⟨references, read, -⟩ := analyze_eq_ok_iff.mp analyzed
  exact filesRead_of_readAll read

/-- Files of which each can be read can all be read. -/
theorem exists_readAll {files : List Path}
    (readable : ∀ path ∈ files, ∃ text, view.read path = .ok text) :
    ∃ references, readAll view files = .ok references := by
  cases read : readAll view files with
  | error failure =>
    obtain ⟨path, member, refusal, refused, _⟩ := exists_refusal_of_readAll read
    obtain ⟨text, answered⟩ := readable path member
    rw [refused] at answered
    cases answered
  | ok references => exact ⟨references, rfl⟩

theorem exists_result_iff {a : Analyzer} :
    (∃ result statistics, a.analyze view = .ok (result, statistics)) ↔
      (∀ path ∈ (a.scan view).found.files, ∃ text, view.read path = .ok text) ∧
        (a.scan view).refusal = none := by
  constructor
  · intro holds
    obtain ⟨result, statistics, ended⟩ := holds
    obtain ⟨references, read, through, _⟩ := analyze_eq_ok_iff.mp ended
    exact ⟨fun path member => exists_text_of_readAll read member, through⟩
  · intro holds
    obtain ⟨readable, through⟩ := holds
    obtain ⟨references, read⟩ := exists_readAll readable
    exact ⟨_, _, analyze_eq_ok_iff.mpr ⟨references, read, through, rfl⟩⟩

/-- The failure at a source file names one of those found that cannot be read. -/
theorem refused_of_unreadable {a : Analyzer} {path : Path} {reason : String}
    (failed : a.analyze view = .error (.unreadableSource path reason)) :
    path ∈ (a.scan view).found.files ∧ ∃ refusal, view.read path = .error refusal ∧
      refusal.reason = reason := by
  rcases analyze_eq_error_iff.mp failed with read | ⟨_, _, _, _, other⟩
  · obtain ⟨_, member, refusal, refused, named⟩ := exists_refusal_of_readAll read
    cases named
    exact ⟨member, refusal, refused, rfl⟩
  · cases other

theorem exists_unreadable_of_refused {a : Analyzer} {path : Path} {refusal : Refusal}
    (member : path ∈ (a.scan view).found.files) (refused : view.read path = .error refusal) :
    ∃ other reason, a.analyze view = .error (.unreadableSource other reason) := by
  cases read : readAll view (a.scan view).found.files with
  | error failure =>
    obtain ⟨other, _, otherRefusal, _, rfl⟩ := exists_refusal_of_readAll read
    exact ⟨other, otherRefusal.reason, analyze_eq_error_iff.mpr (.inl read)⟩
  | ok references =>
    obtain ⟨text, readable⟩ := exists_text_of_readAll read member
    rw [refused] at readable
    cases readable

theorem reconciles_conclude {a : Analyzer} {found : Scan.Found} {references : List (List String)}
    (read : readAll view found.files = .ok references) :
    Reconciles view (· ∈ a.declared) found (a.conclude found references).1
      (a.conclude found references).2 where
  used_ascending := (Names.pairwise_ascending _).filter _
  mem_used name := by
    rw [conclude, Result.mem_used_ofNames, List.mem_filter, mem_flatten_of_readAll read,
      decide_eq_true_eq]
    exact and_congr_right fun named => and_iff_left named
  unused_ascending := (Names.pairwise_ascending _).filter _
  mem_unused name := by
    rw [conclude, Result.mem_unused_ofNames, List.mem_filter, mem_flatten_of_readAll read,
      decide_eq_true_eq]
    exact and_congr_right fun named => not_congr (and_iff_left named)
  total_eq := by
    have size := Names.encard_of_pairwise (Names.pairwise_ascending a.declared)
    simp only [Names.mem_ascending] at size
    exact size
  total_split := Result.length_used_add_unused
  filesScanned_eq := (readAll_eq_ok_iff.mp read).length_eq.symm
  referencesFound_eq := length_flatten_of_readAll read
  skipped_eq := rfl

theorem reconciles_of_analyze {a : Analyzer} {result : Result} {statistics : Statistics}
    (ended : a.analyze view = .ok (result, statistics)) :
    Reconciles view (· ∈ a.declared) (a.scan view).found result statistics := by
  obtain ⟨references, read, _, same⟩ := analyze_eq_ok_iff.mp ended
  have reconciles := reconciles_conclude (a := a) read
  rw [same] at reconciles
  exact reconciles

end Analyzer

section

variable [Platform]

/-- What an analysis of a project comes to: it fails at a source file, or at a directory, or has a
result that means what it should. -/
structure Analyzes (view : FileSystem.View) (project : Path) (ignore : List Name)
    (directories : List String) (scanned : Scan.Outcome)
    (outcome : Except Failure (Result × Statistics)) : Prop where
  /-- It fails at a source file exactly where one of those found cannot be read. -/
  unreadable_iff : (∃ path reason, outcome = .error (.unreadableSource path reason)) ↔
    ∃ path ∈ scanned.found.files, ∃ refusal, view.read path = .error refusal
  /-- The failure names such a file, and why it cannot be read. -/
  unreadable_mem : ∀ path reason, outcome = .error (.unreadableSource path reason) →
    path ∈ scanned.found.files ∧ ∃ refusal, view.read path = .error refusal ∧
      refusal.reason = reason
  /-- If all can be read, there is a result exactly where every name of the directories to scan can
  be looked at. -/
  result_iff : (∃ result statistics, outcome = .ok (result, statistics)) ↔
    (∀ path ∈ scanned.found.files, ∃ text, view.read path = .ok text) ∧
      ∀ name ∈ Scan.effective directories, Scan.Answers view (Scan.startOf project name)
  reconciles : ∀ result statistics, outcome = .ok (result, statistics) →
    Reconciles view (fun name => Declares view project name ∧ name ∉ ignore) scanned.found result
      statistics
  /-- There is no other failure than at the first of these names that cannot be looked at. -/
  access_of_error : ∀ failure, outcome = .error failure →
    (∃ path reason, failure = .unreadableSource path reason) ∨
      ∃ refusal, failure = .access refusal ∧
        (Scan.effective directories).findSome? (Scan.refusalAt view project) = some refusal

open Analyzer in
theorem analyze_exact {view : FileSystem.View} {project : Path} {ignore : List Name}
    {directories : List String} {excluder : Exclusion.Excluder} {a : Analyzer}
    (loaded : load view project ignore directories excluder = .ok a) :
    Analyzes view project ignore directories
      (Scan.scan view excluder project (Scan.effective directories)) (a.analyze view) := by
  have names : (fun name => Declares view project name ∧ name ∉ ignore) = (· ∈ a.declared) := by
    funext name
    exact propext (mem_declared_of_load loaded).symm
  have scanned : Scan.scan view excluder project (Scan.effective directories) = a.scan view := by
    obtain ⟨manifest, _, rfl⟩ := exists_manifest_of_load loaded
    rfl
  have refusal_eq : (a.scan view).refusal =
      (Scan.effective directories).findSome? (Scan.refusalAt view project) := by
    rw [← scanned, Scan.scan_eq]
  rw [scanned]
  constructor
  case unreadable_iff =>
    constructor
    · intro holds
      obtain ⟨path, reason, failed⟩ := holds
      obtain ⟨member, refusal, refused, _⟩ := refused_of_unreadable failed
      exact ⟨path, member, refusal, refused⟩
    · intro holds
      obtain ⟨path, member, refusal, refused⟩ := holds
      exact exists_unreadable_of_refused member refused
  case unreadable_mem => exact fun path reason failed => refused_of_unreadable failed
  case result_iff =>
    have ends : (a.scan view).refusal = none ↔ ∀ name ∈ Scan.effective directories,
        Scan.Answers view (Scan.startOf project name) := by
      rw [← scanned]
      exact Scan.refusal_scan_eq_none_iff
    rw [← ends]
    exact exists_result_iff
  case reconciles =>
    intro result statistics ended
    rw [names]
    exact reconciles_of_analyze ended
  case access_of_error =>
    intro failure failed
    rcases analyze_eq_error_iff.mp failed with read | ⟨_, _, refusal, ended, rfl⟩
    · obtain ⟨path, _, refusal, _, rfl⟩ := exists_refusal_of_readAll read
      exact .inl ⟨path, refusal.reason, rfl⟩
    · exact .inr ⟨refusal, rfl, refusal_eq ▸ ended⟩

end

attribute [local instance] Platform.standard

/-- A project that declares one package and has no source files. -/
def sparseTree : FileSystem.Memory where
  nodes :=
    [(Manifest.pathIn Scan.application,
      .file "\x7b\"dependencies\": \x7b\"left-pad\": \"1\"\x7d\x7d")]
  outages := []

def sparseAnalyzer : Analyzer := ⟨Scan.application, ["src"], .none Scan.application, ["left-pad"]⟩

theorem load_sparseTree : Analyzer.load sparseTree.view Scan.application [] ["src"]
    (.none Scan.application) = .ok sparseAnalyzer :=
  Analyzer.load_eq_ok_of_filtered (by decide +kernel)

/-- A project with three packages and two source files, of which the first uses one of them. -/
def twoSources : FileSystem.Memory where
  nodes :=
    [(Manifest.pathIn Scan.application,
        .file ("\x7b\"dependencies\": \x7b\"react\": \"18\", \"left-pad\": \"1\"\x7d, " ++
          "\"devDependencies\": \x7b\"moment\": \"2\"\x7d\x7d")),
      ((Scan.application.child "src").child "a.js", .file "import 'left-pad'"),
      ((Scan.application.child "src").child "b.js", .file "")]
  outages := []

/-- An analyzer that knows of two of the packages. -/
def twoPackages : Analyzer :=
  ⟨Scan.application, ["src"], .none Scan.application, ["left-pad", "react"]⟩

theorem load_twoSources : Analyzer.load twoSources.view Scan.application ["moment"] ["src"]
    (.none Scan.application) = .ok twoPackages :=
  Analyzer.load_eq_ok_of_filtered (by decide +kernel)

theorem analyze_twoSources : twoPackages.analyze twoSources.view =
    .ok (⟨["left-pad"], ["react"], 2⟩, ⟨2, 1, []⟩) := by decide +kernel

/-- One package is ignored; of the other two, one is used and one is not. -/
theorem analyze_exact_of_twoSources :
    Analyzer.load twoSources.view Scan.application ["moment"] ["src"] (.none Scan.application) =
        .ok twoPackages ∧
      twoPackages.analyze twoSources.view =
        .ok (⟨["left-pad"], ["react"], 2⟩, ⟨2, 1, []⟩) ∧
      Reconciles twoSources.view
        (fun name => Declares twoSources.view Scan.application name ∧ name ∉ [("moment" : Name)])
        (Scan.scan twoSources.view (.none Scan.application) Scan.application
          (Scan.effective ["src"])).found ⟨["left-pad"], ["react"], 2⟩ ⟨2, 1, []⟩ :=
  ⟨load_twoSources, analyze_twoSources,
    (analyze_exact load_twoSources).reconciles _ _ analyze_twoSources⟩

theorem Manifest.load_of_lookAt [Platform] {disk : FileSystem.Disk} {project : Path}
    {content : FileSystem.Content} (clean : FileSystem.Disk.hasNul (pathIn project) = false)
    (stands : disk.lookAt (pathIn project) = .ok (some (.file content))) :
    load disk.view project = ofText (pathIn project) content.toText :=
  load_eq_ofText (FileSystem.Disk.exists?_of_lookAt clean stands)
    (FileSystem.Disk.read_of_lookAt stands)

/-- A disk with this manifest and nothing else. -/
def manifestDisk (manifest : String) : FileSystem.Disk :=
  ⟨[(["work", "app", "package.json"], .file (.text manifest))], ["work", "app"]⟩

theorem load_manifestDisk (manifest : String) :
    Manifest.load (manifestDisk manifest).view Scan.application =
      Manifest.ofText (Manifest.pathIn Scan.application)
        (FileSystem.Content.toText (.text manifest)) :=
  Manifest.load_of_lookAt (by decide +kernel) (by cbv)

/-- A disk with a manifest that declares nothing. -/
def bareDisk : FileSystem.Disk := manifestDisk "\x7b\x7d"

theorem load_bareDisk (directories : List String) :
    Analyzer.load bareDisk.view Scan.application [] directories (.none Scan.application) =
      .ok ⟨Scan.application, directories, .none Scan.application, []⟩ := by
  refine Analyzer.load_eq_ok_of_filtered ?_
  rw [bareDisk, load_manifestDisk]
  decide +kernel

theorem exists_scan_bareDisk_of_longName : ∃ refusal,
    Analyzer.scan ⟨Scan.application, [Scan.longName], .none Scan.application, []⟩ bareDisk.view =
      ⟨.none, some refusal⟩ := by
  have refused : bareDisk.view.isDirectory (Scan.startOf Scan.application Scan.longName) =
      .error (.nameTooLong (Scan.application.child Scan.longName).toText) := by
    rw [Scan.startOf_longName]
    exact Scan.isDirectory_longName bareDisk (by cbv) (by cbv)
  exact ⟨_, Scan.scan_of_refused refused []⟩

/-- Where a name of the directories to scan is too long, there is no result, although there is no
file that could not be read. -/
theorem not_analyze_of_longName :
    ∃ a, Analyzer.load bareDisk.view Scan.application [] [Scan.longName] (.none Scan.application) =
        .ok a ∧
      ¬ ((∀ path ∈ (a.scan bareDisk.view).found.files,
          ∃ text, bareDisk.view.read path = .ok text) →
        ∃ result statistics, a.analyze bareDisk.view = .ok (result, statistics)) := by
  refine ⟨_, load_bareDisk [Scan.longName], fun meaning => ?_⟩
  obtain ⟨refusal, stopped⟩ := exists_scan_bareDisk_of_longName
  rw [stopped] at meaning
  obtain ⟨result, statistics, ended⟩ := meaning fun path member => absurd member List.not_mem_nil
  obtain ⟨_, _, through, _⟩ := Analyzer.analyze_eq_ok_iff.mp ended
  rw [stopped] at through
  cases through

section

variable {view : FileSystem.View}
  (isDirectory : view.isDirectory (Scan.application.child "src") = .ok true)
  (listed : view.list (Scan.application.child "src") = .ok [⟨"a.js", .file⟩])
include isDirectory listed

theorem Scan.scan_of_onlySource : scan view (.none application) application ["src"] =
    ⟨⟨[onlySource], []⟩, none⟩ := by
  have start : startOf application "src" = application.child "src" := by decide +kernel
  have sources : [⟨"a.js", .file⟩].filter (isSource (.none application) (application.child "src")) =
      [⟨"a.js", .file⟩] := by decide +kernel
  have entered : [⟨"a.js", .file⟩].filter
      (isEntered (.none application) (application.child "src")) = [] := by decide +kernel
  have walked : walk view (.none application) (application.child "src") = ⟨[onlySource], []⟩ := by
    rw [walk_eq, listed]
    simp only [sources, entered]
    rfl
  rw [← start] at isDirectory
  rw [scan_of_directory isDirectory, start]
  change Outcome.mk (walk _ (.none application) _ ++ _) _ = _
  rw [walked]
  rfl

end

/-- Where nothing stands at the one name to scan, nothing is found. -/
theorem Analyzer.analyze_of_absent {view : FileSystem.View} {project : Path}
    (directory : String)
    (absent : view.isDirectory (Scan.startOf project directory) = .ok false)
    (declared : List Name) :
    analyze ⟨project, [directory], .none project, declared⟩ view =
      .ok (conclude ⟨project, [directory], .none project, declared⟩ .none []) := by
  have scanned : scan ⟨project, [directory], .none project, declared⟩ view = ⟨.none, none⟩ :=
    Scan.scan_of_absent absent []
  rw [analyze, scanned]
  rfl

section

variable {disk : FileSystem.Disk} {content : FileSystem.Content}
  (leads : disk.locate Scan.application = .ok ["work", "app"])
  (above : disk.node? ["work", "app"] = some .directory)
  (directory : disk.node? ["work", "app", "src"] = some .directory)
  (source : disk.node? ["work", "app", "src", "a.js"] = some (.file content))
  (alone : disk.namesIn ["work", "app", "src"] = ["a.js"])
include leads above directory source

theorem Scan.locate_source :
    disk.locate (application.child "src") = .ok ["work", "app", "src"] ∧
      disk.locate onlySource = .ok ["work", "app", "src", "a.js"] := by
  have leadsOn : disk.locate (application.child "src") = .ok ["work", "app", "src"] :=
    FileSystem.Disk.locate_child_of_real leads above rfl (by decide) directory (by simp) (by decide)
  exact ⟨leadsOn, FileSystem.Disk.locate_child_of_real leadsOn directory rfl (by decide) source
    (by simp) (by decide)⟩

include alone

/-- Of a project with one source file, this file is all that is found. -/
theorem Analyzer.scan_of_onlySource (declared : List Name) :
    scan ⟨Scan.application, ["src"], .none Scan.application, declared⟩ disk.view =
      ⟨⟨[Scan.onlySource], []⟩, none⟩ := by
  obtain ⟨leadsOn, -⟩ := Scan.locate_source leads above directory source
  refine Scan.scan_of_onlySource ?_ ?_
  · change disk.isDirectory (Scan.application.child "src") = _
    rw [FileSystem.Disk.isDirectory, FileSystem.Disk.holds, if_neg (by decide),
      FileSystem.Disk.lookAt, leadsOn, Except.map, directory]
    rfl
  · change disk.list (Scan.application.child "src") = _
    rw [FileSystem.Disk.list, leadsOn]
    simp only [directory, alone, List.map_cons, List.map_nil, FileSystem.Disk.kindOf]
    simp [source]

/-- So this file is all that is looked into. -/
theorem Analyzer.analyze_of_onlySource (declared : List Name) :
    analyze ⟨Scan.application, ["src"], .none Scan.application, declared⟩ disk.view =
      .ok (conclude ⟨Scan.application, ["src"], .none Scan.application, declared⟩
        ⟨[Scan.onlySource], []⟩ [Import.references content.toText]) := by
  obtain ⟨-, leadsIn⟩ := Scan.locate_source leads above directory source
  have read : disk.view.read Scan.onlySource = .ok content.toText := by
    refine FileSystem.Disk.read_of_lookAt ?_
    rw [FileSystem.Disk.lookAt, leadsIn, Except.map, source]
  have readAll : readAll disk.view [Scan.onlySource] =
      .ok [Import.references content.toText] := by
    rw [readAll, read]
    rfl
  refine analyze_eq_ok_iff.mpr ⟨[Import.references content.toText], ?_⟩
  rw [scan_of_onlySource leads above directory source alone]
  exact ⟨readAll, rfl, rfl⟩

end

end DependencyAudit

import DependencyAudit.Proofs.Analysis
import DependencyAudit.Proofs.Scan.Order
import Mathlib.Data.List.Sort

namespace DependencyAudit

open FileSystem

namespace Reconciles

variable {view other : View} {declared : Name → Prop} {found more : Scan.Found}
  {result larger : Result} {statistics counted : Statistics}

/-- Where all names that the files of one scan refer to are referred to by those of another one, all
that is used remains so. -/
theorem used_subset (reconciles : Reconciles view declared found result statistics)
    (reconciles' : Reconciles other declared more larger counted)
    (kept : ∀ name, (∃ path ∈ found.files, RefersAt view path name) →
      ∃ path ∈ more.files, RefersAt other path name) : result.used ⊆ larger.used := by
  intro name used
  obtain ⟨named, refers⟩ := (reconciles.mem_used name).mp used
  exact (reconciles'.mem_used name).mpr ⟨named, kept name refers⟩

theorem unused_subset (reconciles : Reconciles view declared found result statistics)
    (reconciles' : Reconciles other declared more larger counted)
    (kept : ∀ name, (∃ path ∈ found.files, RefersAt view path name) →
      ∃ path ∈ more.files, RefersAt other path name) : larger.unused ⊆ result.unused := by
  intro name unused
  obtain ⟨named, unreferred⟩ := (reconciles'.mem_unused name).mp unused
  exact (reconciles.mem_unused name).mpr ⟨named, fun refers => unreferred (kept name refers)⟩

theorem total_eq_total (reconciles : Reconciles view declared found result statistics)
    (reconciles' : Reconciles other declared more larger counted) : larger.total = result.total :=
  Nat.cast_inj.mp (reconciles'.total_eq.symm.trans reconciles.total_eq)

/-- The set of the files decides what the result is. -/
theorem result_eq (reconciles : Reconciles view declared found result statistics)
    (reconciles' : Reconciles view declared more larger counted)
    (same : ∀ path, path ∈ found.files ↔ path ∈ more.files) : result = larger := by
  have used : result.used = larger.used := by
    refine reconciles.used_ascending.eq_of_mem_iff reconciles'.used_ascending fun name => ?_
    simp only [reconciles.mem_used, reconciles'.mem_used, same]
  have unused : result.unused = larger.unused := by
    refine reconciles.unused_ascending.eq_of_mem_iff reconciles'.unused_ascending fun name => ?_
    simp only [reconciles.mem_unused, reconciles'.mem_unused, same]
  have total := reconciles.total_eq_total reconciles'
  cases result
  cases larger
  simp_all

/-- What is said of files holds in any view in which they can be read as they are in this one. -/
theorem of_read_eq (reconciles : Reconciles other declared found result statistics)
    (same : ∀ path ∈ found.files, other.read path = view.read path) :
    Reconciles view declared found result statistics := by
  have refers : ∀ path ∈ found.files, RefersAt other path = RefersAt view path := by
    intro path member
    funext name
    simp only [RefersAt, same path member]
  have someRefers : ∀ name, (∃ path ∈ found.files, RefersAt other path name) ↔
      ∃ path ∈ found.files, RefersAt view path name := by
    intro name
    refine exists_congr fun path => and_congr_right fun member => ?_
    rw [refers path member]
  obtain ⟨ascending, used, ascending', unused, total, split, files, references, skipped⟩ :=
    reconciles
  simp only [someRefers] at used unused
  rw [List.map_congr_left fun path member => by rw [refers path member]] at references
  exact ⟨ascending, used, ascending', unused, total, split, files, references, skipped⟩

/-- The order of the files makes no difference to what is counted. -/
theorem counts_eq (reconciles : Reconciles view declared found result statistics)
    (reconciles' : Reconciles view declared more larger counted)
    (files : found.files.Perm more.files) :
    statistics.filesScanned = counted.filesScanned ∧
      statistics.referencesFound = counted.referencesFound := by
  constructor
  · rw [reconciles.filesScanned_eq, reconciles'.filesScanned_eq, files.length_eq]
  · have sums := (files.map fun path => {name | RefersAt view path name}.encard).sum_eq
    rw [← reconciles.referencesFound_eq, ← reconciles'.referencesFound_eq] at sums
    exact Nat.cast_inj.mp sums

theorem skipped_perm (reconciles : Reconciles view declared found result statistics)
    (reconciles' : Reconciles view declared more larger counted)
    (skipped : found.skipped.Perm more.skipped) : statistics.skipped.Perm counted.skipped := by
  rw [reconciles.skipped_eq, reconciles'.skipped_eq]
  exact skipped.map _

end Reconciles

namespace Analyzer

/-- The same analyzer for other directories. -/
def scanning (a : Analyzer) (directories : List String) : Analyzer := { a with directories }

variable {view other : View} {a : Analyzer}

theorem load_of_reorders [Platform] (same : view.Reorders other) (project : Path)
    (ignore : List Name) (directories others : List String) (excluder : Exclusion.Excluder) :
    load other project ignore others excluder =
      (load view project ignore directories excluder).map (·.scanning others) := by
  have manifest : Manifest.load other project = Manifest.load view project := by
    simp only [Manifest.load, same.exists_eq, same.read_eq]
  unfold load
  rw [manifest]
  cases Manifest.load view project <;> rfl

theorem reconciles_of_reorders (same : view.Reorders other) {declared : Name → Prop}
    {found : Scan.Found} {result : Result} {statistics : Statistics}
    (reconciles : Reconciles other declared found result statistics) :
    Reconciles view declared found result statistics :=
  reconciles.of_read_eq fun path _ => by rw [same.read_eq]

theorem answers_of_reorders (same : view.Reorders other) {path : Path} :
    Scan.Answers other path ↔ Scan.Answers view path := by
  simp only [Scan.Answers, same.isDirectory_eq]

theorem answers_of_analyze {result : Result} {statistics : Statistics}
    (ended : a.analyze view = .ok (result, statistics)) :
    ∀ name ∈ Scan.effective a.directories, Scan.Answers view (Scan.startOf a.project name) := by
  obtain ⟨_, _, through, _⟩ := analyze_eq_ok_iff.mp ended
  exact Scan.refusal_scan_eq_none_iff.mp through

/-- More names given, in whatever order, are more names to scan. -/
theorem effective_subset {names more : List String} (given : names ≠ []) (within : names ⊆ more) :
    Scan.effective names ⊆ Scan.effective more := by
  have given' : more ≠ [] := by
    intro empty
    subst empty
    exact given (List.subset_nil.mp within)
  rw [Scan.effective, Scan.effective, if_neg given, if_neg given']
  exact within

theorem effective_iff {names others : List String} (set : ∀ name, name ∈ names ↔ name ∈ others)
    (name : String) : name ∈ Scan.effective names ↔ name ∈ Scan.effective others := by
  have empty : names = [] ↔ others = [] := by
    simp only [List.eq_nil_iff_forall_not_mem, set]
  by_cases given : names = []
  · rw [given, empty.mp given]
  · rw [Scan.effective, Scan.effective, if_neg given, if_neg (mt empty.mpr given)]
    exact set name

theorem files_subset (same : view.Reorders other) {more : List String}
    (answers : ∀ name ∈ Scan.effective a.directories,
      Scan.Answers view (Scan.startOf a.project name))
    (answers' : ∀ name ∈ Scan.effective more, Scan.Answers view (Scan.startOf a.project name))
    (within : Scan.effective a.directories ⊆ Scan.effective more) :
    (a.scan view).found.files ⊆ ((a.scanning more).scan other).found.files := by
  have larger : (a.scan view).found.files ⊆ ((a.scanning more).scan view).found.files :=
    Scan.files_scan_subset answers answers' within
  exact List.Subset.trans larger (Scan.files_scan_perm same _).subset

/-- Directories with the same names lead to the same files. -/
theorem mem_files_iff (same : view.Reorders other) {others : List String}
    (set : ∀ name, name ∈ a.directories ↔ name ∈ others)
    (answers : ∀ name ∈ Scan.effective a.directories,
      Scan.Answers view (Scan.startOf a.project name)) (path : Path) :
    path ∈ (a.scan view).found.files ↔ path ∈ ((a.scanning others).scan other).found.files := by
  have names := effective_iff set
  have answers' : ∀ name ∈ Scan.effective others,
      Scan.Answers view (Scan.startOf a.project name) :=
    fun name named => answers name ((names name).mpr named)
  constructor
  · intro found
    exact files_subset same answers answers' (fun name => (names name).mp) found
  · intro found
    have found := (Scan.files_scan_perm same _).mem_iff.mpr found
    exact Scan.files_scan_subset answers' answers (fun name => (names name).mpr) found

end Analyzer

/-- The analysis fails at a source file that cannot be read. -/
def Unreadable (outcome : Except Failure (Result × Statistics)) : Prop :=
  ∃ path reason, outcome = .error (.unreadableSource path reason)

/-- Two analyses come to the same result, or both fail at a source file. -/
def SameOutcome (first second : Except Failure (Result × Statistics)) : Prop :=
  (∃ result statistics counted,
    first = .ok (result, statistics) ∧ second = .ok (result, counted)) ∨
    Unreadable first ∧ Unreadable second

/-- What the order in which entries are listed and directories are given decides of an analysis. -/
structure OrderFree (view other : View) (a : Analyzer) : Prop where
  /-- With the same set of directories the outcome is the same, as long as each of them can be
  looked at. -/
  sameOutcome : ∀ others, (∀ name, name ∈ a.directories ↔ name ∈ others) →
    (∀ name ∈ Scan.effective a.directories, Scan.Answers view (Scan.startOf a.project name)) →
    SameOutcome (a.analyze view) ((a.scanning others).analyze other)
  /-- Otherwise there is a result in neither view. -/
  result_iff : ∀ others, (∀ name, name ∈ a.directories ↔ name ∈ others) → ∀ result,
    (∃ statistics, a.analyze view = .ok (result, statistics)) ↔
      ∃ counted, (a.scanning others).analyze other = .ok (result, counted)
  /-- If only the listings differ, a failure is of the same kind in any case. -/
  unreadable_iff : Unreadable (a.analyze view) ↔ Unreadable (a.analyze other)
  access_iff : ∀ refusal, a.analyze view = .error (.access refusal) ↔
    a.analyze other = .error (.access refusal)
  /-- If only the listings differ, the same is counted. -/
  counts : ∀ result statistics counted, a.analyze view = .ok (result, statistics) →
    a.analyze other = .ok (result, counted) →
    statistics.filesScanned = counted.filesScanned ∧
      statistics.referencesFound = counted.referencesFound ∧
      statistics.skipped.Perm counted.skipped
  /-- With further directories more names can only be found used. -/
  enlarged : ∀ more, a.directories ≠ [] → a.directories ⊆ more →
    ∀ result statistics larger counted, a.analyze view = .ok (result, statistics) →
      (a.scanning more).analyze other = .ok (larger, counted) →
      larger.total = result.total ∧ result.used ⊆ larger.used ∧ larger.unused ⊆ result.unused

namespace Analyzer

variable {view other : View} {a : Analyzer}

theorem unreadable_iff : Unreadable (a.analyze view) ↔
    ∃ path ∈ (a.scan view).found.files, ∃ refusal, view.read path = .error refusal := by
  constructor
  · intro failed
    obtain ⟨path, reason, failed⟩ := failed
    obtain ⟨member, refusal, refused, -⟩ := refused_of_unreadable failed
    exact ⟨path, member, refusal, refused⟩
  · intro holds
    obtain ⟨path, member, refusal, refused⟩ := holds
    exact exists_unreadable_of_refused member refused

/-- An analysis whose scan goes through has a result or fails at a source file. -/
theorem result_or_unreadable (through : (a.scan view).refusal = none) :
    (∃ result statistics, a.analyze view = .ok (result, statistics)) ∨
      Unreadable (a.analyze view) := by
  by_cases readable : ∀ path ∈ (a.scan view).found.files, ∃ text, view.read path = .ok text
  · exact .inl (exists_result_iff.mpr ⟨readable, through⟩)
  · push Not at readable
    obtain ⟨path, member, refused⟩ := readable
    refine .inr (unreadable_iff.mpr ⟨path, member, ?_⟩)
    cases read : view.read path with
    | error refusal => exact ⟨refusal, rfl⟩
    | ok text => exact absurd read (refused text)

/-- Where the scan goes through in both views and leads to the same files, so is the outcome. -/
theorem sameOutcome_of_mem_files_iff (same : view.Reorders other) {others : List String}
    (through : (a.scan view).refusal = none)
    (through' : ((a.scanning others).scan other).refusal = none)
    (files : ∀ path, path ∈ (a.scan view).found.files ↔
      path ∈ ((a.scanning others).scan other).found.files) :
    SameOutcome (a.analyze view) ((a.scanning others).analyze other) := by
  have failing : Unreadable (a.analyze view) ↔
      Unreadable ((a.scanning others).analyze other) := by
    simp only [unreadable_iff, files, same.read_eq]
  rcases result_or_unreadable through with ⟨result, statistics, ended⟩ | failed
  · rcases result_or_unreadable through' with ⟨larger, counted, ended'⟩ | failed'
    · have first := reconciles_of_analyze ended
      have second := reconciles_of_reorders same (reconciles_of_analyze ended')
      obtain rfl := first.result_eq second files
      exact .inl ⟨result, statistics, counted, ended, ended'⟩
    · exact .inr ⟨failing.mpr failed', failed'⟩
  · exact .inr ⟨failed, failing.mp failed⟩

theorem sameOutcome_of_answers (same : view.Reorders other) {others : List String}
    (set : ∀ name, name ∈ a.directories ↔ name ∈ others)
    (answers : ∀ name ∈ Scan.effective a.directories,
      Scan.Answers view (Scan.startOf a.project name)) :
    SameOutcome (a.analyze view) ((a.scanning others).analyze other) := by
  have through : (a.scan view).refusal = none := Scan.refusal_scan_eq_none_iff.mpr answers
  have through' : ((a.scanning others).scan other).refusal = none := by
    refine Scan.refusal_scan_eq_none_iff.mpr fun name named => ?_
    exact (answers_of_reorders same).mpr (answers name ((effective_iff set name).mpr named))
  exact sameOutcome_of_mem_files_iff same through through' (mem_files_iff same set answers)

theorem sameOutcome_result {first second : Except Failure (Result × Statistics)} {result : Result}
    {statistics : Statistics} (outcome : SameOutcome first second)
    (ended : first = .ok (result, statistics)) : ∃ counted, second = .ok (result, counted) := by
  subst ended
  rcases outcome with ⟨_, _, counted, same, ended⟩ | ⟨⟨_, _, failed⟩, -⟩
  · cases same
    exact ⟨counted, ended⟩
  · cases failed

theorem access_of_analyze (same : view.Reorders other) {refusal : Refusal}
    (failed : a.analyze view = .error (.access refusal)) :
    a.analyze other = .error (.access refusal) := by
  rcases analyze_eq_error_iff.mp failed with read | ⟨references, read, other_, stopped, named⟩
  · obtain ⟨path, _, other_, _, named⟩ := exists_refusal_of_readAll read
    cases named
  · cases named
    have files : (a.scan view).found.files.Perm (a.scan other).found.files :=
      Scan.files_scan_perm same _
    obtain ⟨references', read'⟩ : ∃ references,
        readAll other (a.scan other).found.files = .ok references := by
      refine exists_readAll fun path member => ?_
      rw [same.read_eq]
      exact exists_text_of_readAll read (files.mem_iff.mpr member)
    refine analyze_eq_error_iff.mpr (.inr ⟨references', read', refusal, ?_, rfl⟩)
    rw [← stopped]
    exact Scan.refusal_scan_eq same _

end Analyzer

open Analyzer in
/-- The order of listings and directories decides nothing of an analysis, but for where it fails. -/
theorem analyze_orderFree [Platform] {view other : View} (same : view.Reorders other) :
    (∀ project ignore directories others excluder,
      load other project ignore others excluder =
        (load view project ignore directories excluder).map (·.scanning others)) ∧
      ∀ a : Analyzer, OrderFree view other a := by
  refine ⟨load_of_reorders same, fun a => ?_⟩
  constructor
  case sameOutcome => exact fun others set answers => sameOutcome_of_answers same set answers
  case result_iff =>
    intro others set result
    constructor
    · intro holds
      obtain ⟨statistics, ended⟩ := holds
      exact sameOutcome_result (sameOutcome_of_answers same set (answers_of_analyze ended)) ended
    · intro holds
      obtain ⟨counted, ended⟩ := holds
      have back : SameOutcome ((a.scanning others).analyze other) (a.analyze view) :=
        sameOutcome_of_answers same.symm (fun name => (set name).symm)
          (answers_of_analyze ended)
      exact sameOutcome_result back ended
  case unreadable_iff =>
    have files : (a.scan view).found.files.Perm (a.scan other).found.files :=
      Scan.files_scan_perm same _
    rw [unreadable_iff, unreadable_iff, same.read_eq]
    exact exists_congr fun path => and_congr_left fun _ => files.mem_iff
  case access_iff =>
    intro refusal
    exact ⟨access_of_analyze same, access_of_analyze same.symm⟩
  case counts =>
    intro result statistics counted ended ended'
    have first := reconciles_of_analyze ended
    have second := reconciles_of_reorders same (reconciles_of_analyze ended')
    obtain ⟨scanned, references⟩ := first.counts_eq second (Scan.files_scan_perm same _)
    exact ⟨scanned, references, first.skipped_perm second (Scan.skipped_scan_perm same _)⟩
  case enlarged =>
    intro more given within result statistics larger counted ended ended'
    have first := reconciles_of_analyze ended
    have second := reconciles_of_reorders same (reconciles_of_analyze ended')
    have answers' : ∀ name ∈ Scan.effective more, Scan.Answers view (Scan.startOf a.project name) :=
      fun name named => (answers_of_reorders same).mp (answers_of_analyze ended' name named)
    have files := files_subset same (answers_of_analyze ended) answers'
      (effective_subset given within)
    have kept : ∀ name, (∃ path ∈ (a.scan view).found.files, RefersAt view path name) →
        ∃ path ∈ ((a.scanning more).scan other).found.files, RefersAt view path name :=
      fun name refers => refers.imp fun path holds => ⟨files holds.1, holds.2⟩
    exact ⟨first.total_eq_total second, first.used_subset second kept,
      first.unused_subset second kept⟩

attribute [local instance] Platform.standard

/-- Read backwards and with the directory given twice, the project has the same result. -/
theorem analyze_orderFree_of_twoSources :
    twoSources.view.Reorders twoSources.view.backwards ∧
      twoSources.view.backwards.list (Scan.application.child "src") ≠
        twoSources.view.list (Scan.application.child "src") ∧
      SameOutcome (sparseAnalyzer.analyze twoSources.view)
        ((sparseAnalyzer.scanning ["src", "src"]).analyze twoSources.view.backwards) := by
  have same := twoSources.view.reorders_backwards
  have free := (analyze_orderFree same).2 sparseAnalyzer
  refine ⟨same, ?_, free.sameOutcome ["src", "src"] ?_ fun name _ => ⟨_, rfl⟩⟩
  · cbv
    simp
  · simp [sparseAnalyzer]

/-- With a name that is too long in the list there is neither a result nor a file that cannot be
read, although both analyses are one and the same. -/
theorem not_sameOutcome_of_longName :
    ∃ a, Analyzer.load bareDisk.view Scan.application [] [Scan.longName] (.none Scan.application) =
        .ok a ∧ bareDisk.view.Reorders bareDisk.view ∧
      ¬ SameOutcome (a.analyze bareDisk.view) ((a.scanning [Scan.longName]).analyze bareDisk.view) := by
  refine ⟨_, load_bareDisk [Scan.longName], .refl _, fun same => ?_⟩
  obtain ⟨refusal, stopped⟩ := exists_scan_bareDisk_of_longName
  have failed : Analyzer.analyze ⟨Scan.application, [Scan.longName], .none Scan.application, []⟩
      bareDisk.view = .error (.access refusal) := by
    rw [Analyzer.analyze, stopped]
    rfl
  rcases same with ⟨_, _, _, ended, -⟩ | ⟨⟨_, _, failed'⟩, -⟩
  · rw [failed] at ended
    cases ended
  · rw [failed] at failed'
    cases failed'

end DependencyAudit

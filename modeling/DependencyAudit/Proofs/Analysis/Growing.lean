import DependencyAudit.Proofs.Analysis.Session
import DependencyAudit.Proofs.Analysis.Unscanned
import DependencyAudit.Proofs.Import.Appending
import DependencyAudit.Proofs.Scan.Growing

namespace DependencyAudit

open FileSystem

/-- What is used stays used, nothing becomes unused, and as many names are declared. -/
structure Result.GrowsTo (result larger : Result) : Prop where
  used : result.used ⊆ larger.used
  unused : larger.unused ⊆ result.unused
  total : larger.total = result.total

namespace Analyzer

variable {m other : Memory} {a : Analyzer}

theorem refers_of_growsTo (grows : m.GrowsTo other) {name : Name}
    (refers : ∃ path ∈ (a.scan m.view).found.files, RefersAt m.view path name) :
    ∃ path ∈ (a.scan other.view).found.files, RefersAt other.view path name := by
  obtain ⟨path, found, text, read, reference, referred, named⟩ := refers
  obtain ⟨isFile, -⟩ := Scan.exists_node_of_mem_files found
  obtain ⟨more, read'⟩ := grows.read isFile read
  exact ⟨path, Scan.files_scan_subset_of_growsTo grows _ found, text ++ more, read',
    reference, Import.references_subset_append text more referred, named⟩

/-- If a tree that has grown can be analysed, it could be before, and its result grows as well. -/
theorem exists_analyze_of_growsTo (grows : m.GrowsTo other) {larger : Result}
    {counted : Statistics} (ended : a.analyze other.view = .ok (larger, counted)) :
    ∃ result statistics, a.analyze m.view = .ok (result, statistics) ∧ result.GrowsTo larger := by
  obtain ⟨readable, -⟩ := exists_result_iff.mp ⟨larger, counted, ended⟩
  have readable' : ∀ path ∈ (a.scan m.view).found.files, ∃ text, m.view.read path = .ok text := by
    intro path found
    obtain ⟨-, content, node⟩ := Scan.exists_node_of_mem_files found
    obtain ⟨text, read⟩ := readable path (Scan.files_scan_subset_of_growsTo grows _ found)
    exact ⟨content, grows.exists_read node read⟩
  obtain ⟨result, statistics, ended'⟩ :=
    exists_result_iff.mpr ⟨readable', Session.refusal_scan_memory a m⟩
  have first := reconciles_of_analyze ended'
  have second := reconciles_of_analyze ended
  exact ⟨result, statistics, ended', first.used_subset second fun _ => refers_of_growsTo grows,
    first.unused_subset second fun _ => refers_of_growsTo grows, first.total_eq_total second⟩

theorem growsTo_of_analyze (grows : m.GrowsTo other) {result larger : Result}
    {statistics counted : Statistics} (before : a.analyze m.view = .ok (result, statistics))
    (after : a.analyze other.view = .ok (larger, counted)) : result.GrowsTo larger := by
  obtain ⟨same, _, before', grown⟩ := exists_analyze_of_growsTo grows after
  rw [before] at before'
  cases before'
  exact grown

end Analyzer

namespace Session

/-- A step that can only add to the sources: it creates a file where there is nothing, below
directories, or appends to a file. -/
inductive Grows (m : Memory) : Step → Prop
  | create {p text} : m.node? p = none → m.isDirectory p = false →
      (∀ directory, directory.Below p → m.isDirectory directory ∨ m.node? directory = none) →
      Grows m (.write p text)
  | append {p text more} : m.node? p = some (.file text) → Grows m (.write p (text ++ more))

variable {m : Memory} {next : Step} {steps : List Step} {a : Analyzer} {result larger : Result}
  {statistics counted : Statistics} {time later : Nat}

/-- Either step writes at a path that is no directory and below directories only, and what it writes
goes on with what is there. -/
theorem Grows.exists_write (isTree : m.IsTree) (grows : Grows m next) :
    ∃ p text, next = .write p text ∧ m.isDirectory p = false ∧
      (∀ directory, directory.Below p → m.isDirectory directory ∨ m.node? directory = none) ∧
      ∀ before, m.node? p = some (.file before) → ∃ more, text = before ++ more := by
  cases grows with
  | @create p text nothing noDirectory above =>
    refine ⟨p, text, rfl, noDirectory, above, fun before node => ?_⟩
    rw [nothing] at node
    cases node
  | @append p text more node =>
    refine ⟨p, text ++ more, rfl, isTree.not_isDirectory node,
      fun directory below => .inl (Memory.isDirectory_of_below_node? node below), ?_⟩
    intro before node'
    rw [node] at node'
    cases node'
    exact ⟨more, rfl⟩

theorem Grows.growsTo (isTree : m.IsTree) (grows : Grows m next) :
    m.GrowsTo (altered m next) := by
  obtain ⟨p, text, rfl, noDirectory, above, continues⟩ := grows.exists_write isTree
  exact Memory.growsTo_write noDirectory above continues

theorem Grows.isTree (isTree : m.IsTree) (grows : Grows m next) : (altered m next).IsTree := by
  obtain ⟨p, text, rfl, noDirectory, above, -⟩ := grows.exists_write isTree
  intro node entered directory below found stands
  have reached : (∃ old ∈ m.nodes, directory.Below old.1) ∨ directory.Below p :=
    exists_mem_putAt.mp ⟨node, entered, below⟩
  by_cases here : directory = p
  · -- nothing is below a path where a text is written
    subst here
    exfalso
    rcases reached with ⟨old, entered, below⟩ | below
    · rw [Memory.isDirectory_of_below entered below] at noDirectory
      cases noDirectory
    · exact absurd below.length_lt (Nat.lt_irrefl _)
  · -- and above it there are only directories, or what the text makes one
    rw [altered, Memory.node?_write_of_ne here] at stands
    rcases reached with ⟨old, entered, below⟩ | below
    · exact isTree old entered directory below found stands
    · refine isTree.eq_directory ((above directory below).resolve_right ?_) stands
      rw [stands]
      exact Option.some_ne_none found

theorem analyze_of_step {state : State}
    (answer : (step state .analyze).2 = .analysis result statistics) :
    state.analyzer.analyze state.memory.view = .ok (result, statistics) := by
  rcases step_analyze state with ⟨_, _, ended, done⟩ | ⟨_, _, done⟩
  · rw [done] at answer
    cases answer
    exact ended
  · rw [done] at answer
    cases answer

/-- A step that adds to the sources, by a new file or by more text, leaves what is used in use. -/
theorem growsTo_of_grows {state : State} (isTree : state.memory.IsTree)
    (grows : Grows state.memory next)
    (before : (step state .analyze).2 = .analysis result statistics)
    (after : (step (step state next).1 .analyze).2 = .analysis larger counted) :
    result.GrowsTo larger := by
  have ended := analyze_of_step after
  rw [analyzer_step, memory_step] at ended
  exact Analyzer.growsTo_of_analyze (grows.growsTo isTree) (analyze_of_step before) ended

/-- A source file in a directory that is not there without it. -/
def laterFile : Path := ((Scan.application.child "src").child "lib").child "c.js"

theorem isTree_twoSources : twoSources.IsTree := by
  intro node entered directory below found stands
  have apart : ∀ first ∈ twoSources.nodes, ∀ second ∈ twoSources.nodes,
      (first.1.relativeTo? second.1 = none ∨ first.1.names.length = second.1.names.length) := by
    decide +kernel
  obtain ⟨rest, leads⟩ := below.within
  rcases apart node entered _ (Memory.exists_mem_of_node? stands) with nowhere | level
  · rw [Path.relativeTo?_eq_some_iff.mpr leads] at nowhere
    cases nowhere
  · exact absurd level below.length_lt.ne'

theorem grows_laterFile (text : String) : Grows twoSources (.write laterFile text) := by
  refine .create (by decide +kernel) (by decide +kernel) fun directory below => .inr ?_
  have apart : ∀ node ∈ twoSources.nodes, laterFile.relativeTo? node.1 = none := by decide +kernel
  refine Option.eq_none_iff_forall_ne_some.mpr fun node stands => ?_
  obtain ⟨rest, leads⟩ := below.within
  have nowhere := apart _ (Memory.exists_mem_of_node? stands)
  rw [Path.relativeTo?_eq_some_iff.mpr leads] at nowhere
  cases nowhere

/-- The file brings a package into use; the one that has been in use before stays so. -/
theorem growsTo_of_grows_laterFile :
    (step (start twoPackages twoSources) .analyze).2 =
        .analysis ⟨["left-pad"], ["react"], 2⟩ ⟨2, 1, []⟩ ∧
      (step (step (start twoPackages twoSources) (.write laterFile "import 'react'")).1
          .analyze).2 = .analysis ⟨["left-pad", "react"], [], 2⟩ ⟨3, 2, []⟩ ∧
      (⟨["left-pad"], ["react"], 2⟩ : Result).GrowsTo ⟨["left-pad", "react"], [], 2⟩ := by
  have before : (step (start twoPackages twoSources) .analyze).2 =
      .analysis ⟨["left-pad"], ["react"], 2⟩ ⟨2, 1, []⟩ := by decide +kernel
  have after : (step (step (start twoPackages twoSources)
      (.write laterFile "import 'react'")).1 .analyze).2 =
      .analysis ⟨["left-pad", "react"], [], 2⟩ ⟨3, 2, []⟩ := by decide +kernel
  exact ⟨before, after, growsTo_of_grows isTree_twoSources (grows_laterFile _) before after⟩

/-- Each step of a session adds to the sources that it finds, or leaves the tree as it is. -/
def OnlyGrows (m : Memory) (steps : List Step) : Prop :=
  ∀ time next, steps[time]? = some next →
    Grows (treeAfter m steps time) next ∨ ∀ tree, altered tree next = tree

theorem isTree_treeAfter (isTree : m.IsTree) (only : OnlyGrows m steps)
    (within : time ≤ steps.length) : (treeAfter m steps time).IsTree := by
  induction time with
  | zero => exact isTree
  | succ time ih =>
    have here : steps[time]? = some steps[time] := List.getElem?_eq_getElem within
    rw [treeAfter_succ here]
    rcases only time _ here with grows | same
    · exact grows.isTree (ih (by omega))
    · rw [same]
      exact ih (by omega)

theorem growsTo_treeAfter (isTree : m.IsTree) (only : OnlyGrows m steps) (order : time ≤ later)
    (within : later ≤ steps.length) :
    (treeAfter m steps time).GrowsTo (treeAfter m steps later) := by
  -- The trees stay trees on the way, which is what each step needs to grow the next one.
  induction later, order using Nat.le_induction with
  | base => exact .refl _
  | succ later order ih =>
    have here : steps[later]? = some steps[later] := List.getElem?_eq_getElem within
    refine (ih (by omega)).trans ?_
    rw [treeAfter_succ here]
    rcases only later _ here with grows | same
    · exact grows.growsTo (isTree_treeAfter isTree only (by omega))
    · rw [same]
      exact .refl _

/-- What a session answers as an analysis is an analysis of the tree at that time. -/
theorem analyze_of_answer
    (answer : (run (start a m) steps).2[time]? = some (.analysis result statistics)) :
    a.analyze (treeAfter m steps time).view = .ok (result, statistics) := by
  have within : time < steps.length := lt_length_of_answer answer
  obtain ⟨next, here⟩ : ∃ next, steps[time]? = some next := ⟨_, List.getElem?_eq_getElem within⟩
  have given : (run (start a m) steps).2[time]? = some (step (stateAfter a m steps time) next).2 :=
    getElem?_run _ here
  have answered : Answered a m steps time next (step (stateAfter a m steps time) next).2 :=
    answered_step (remembers_stateAfter within.le)
  rw [← Option.some.inj (answer.symm.trans given)] at answered
  cases answered with
  | result ended => exact ended

/-- All analyses of a session that only adds to the sources grow, from each to every later one. -/
theorem growsTo_of_answers (isTree : m.IsTree) (only : OnlyGrows m steps) (order : time ≤ later)
    (before : (run (start a m) steps).2[time]? = some (.analysis result statistics))
    (after : (run (start a m) steps).2[later]? = some (.analysis larger counted)) :
    result.GrowsTo larger :=
  Analyzer.growsTo_of_analyze
    (growsTo_treeAfter isTree only order (lt_length_of_answer after).le)
    (analyze_of_answer before) (analyze_of_answer after)

end Session

end DependencyAudit

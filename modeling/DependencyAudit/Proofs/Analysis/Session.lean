import DependencyAudit.Analysis.Session
import DependencyAudit.Proofs.Analysis
import Mathlib.Data.List.TakeDrop

namespace DependencyAudit.Session

open FileSystem

/-- What has happened last before a time; the initial value, if nothing has. -/
inductive Latest {α : Type} (happens : Nat → α → Prop) (initial : α) (time : Nat) : α → Prop
  | never : (∀ i < time, ∀ value, ¬ happens i value) → Latest happens initial time initial
  | last {i value} : i < time → happens i value →
      (∀ j < time, i < j → ∀ other, ¬ happens j other) → Latest happens initial time value

namespace Latest

variable {α : Type} {happens : Nat → α → Prop} {initial value : α} {time : Nat}

theorem start : Latest happens initial 0 initial := .never fun i before => absurd before (by omega)

theorem now (here : happens time value) : Latest happens initial (time + 1) value := by
  refine .last (Nat.lt_succ_self time) here ?_
  intro j before after
  omega

theorem wait (nothing : ∀ other, ¬ happens time other) (known : Latest happens initial time value) :
    Latest happens initial (time + 1) value := by
  cases known with
  | never none =>
    refine .never fun i before => ?_
    rcases Nat.lt_succ_iff_lt_or_eq.mp before with earlier | rfl
    · exact none i earlier
    · exact nothing
  | last earlier here none =>
    refine .last (by omega) here fun j before after => ?_
    rcases Nat.lt_succ_iff_lt_or_eq.mp before with past | rfl
    · exact none j past after
    · exact nothing

end Latest

/-- What a step makes of the tree. -/
def altered (m : Memory) : Step → Memory
  | .write path text => m.write path text
  | .remove path => m.remove path
  | .fail path outage => m.fail path outage
  | .heal path => m.heal path
  | .analyze | .scan | .skipped | .statistics | .declared => m

open Classical in
/-- These are the directories that a scan of the tree reaches but cannot list, each as often as it
is reached. -/
def FailIn (a : Analyzer) (m : Memory) (skipped : List Path) : Prop :=
  ∀ directory, skipped.count directory =
    (Scan.starts m.view a.project (Scan.effective a.directories)).countP
      (Scan.Skips m.view a.excluder · directory)

section

variable (a : Analyzer) (m : Memory) (steps : List Step)

/-- The tree as the first steps leave it. -/
def treeAfter (time : Nat) : Memory := (steps.take time).foldl altered m

/-- The step at this time is an analysis, and a new analyzer would come to a result with these
statistics. -/
def Counts (time : Nat) (statistics : Statistics) : Prop :=
  steps[time]? = some .analyze ∧
    ∃ result, a.analyze (treeAfter m steps time).view = .ok (result, statistics)

/-- The step at this time is a scan, and a new scanner would note these directories. -/
def Notes (time : Nat) (skipped : List Path) : Prop :=
  steps[time]? = some .scan ∧ skipped = (a.scan (treeAfter m steps time).view).found.skipped ∧
    FailIn a (treeAfter m steps time) skipped

/-- All that a state knows of the steps before it. -/
structure Remembers (time : Nat) (state : State) : Prop where
  analyzer : state.analyzer = a
  memory : state.memory = treeAfter m steps time
  statistics : Latest (Counts a m steps) .zero time state.statistics
  skipped : Latest (Notes a m steps) [] time state.skipped

/-- The state after the first steps. -/
def stateAfter (time : Nat) : State := (run (start a m) (steps.take time)).1

/-- How a step at some time is to be answered. -/
inductive Answered (time : Nat) : Step → Answer → Prop
  | altered {step} : step ∉ [.analyze, .scan, .skipped, .statistics, .declared] →
      Answered time step .none
  | result {result statistics} :
      a.analyze (treeAfter m steps time).view = .ok (result, statistics) →
      Answered time .analyze (.analysis result statistics)
  | failure {failure} : a.analyze (treeAfter m steps time).view = .error failure →
      Answered time .analyze (.failed failure)
  | scan {found} : found = (a.scan (treeAfter m steps time).view).found →
      FailIn a (treeAfter m steps time) found.skipped → Answered time .scan (.scan found)
  | skipped {directories} : Latest (Notes a m steps) [] time directories →
      Answered time .skipped (.skipped directories)
  | statistics {statistics} : Latest (Counts a m steps) .zero time statistics →
      Answered time .statistics (.statistics statistics)
  | declared : Answered time .declared (.declared a.declared)

/-- A session in which nothing is carried over from one run to the next. -/
structure CarriesNothing : Prop where
  remembers : ∀ time ≤ steps.length, Remembers a m steps time (stateAfter a m steps time)
  answered : ∀ time step, steps[time]? = some step →
    ∃ answer, (run (start a m) steps).2[time]? = some answer ∧ Answered a m steps time step answer
  /-- An analysis without a result leaves the statistics exactly as they were. -/
  aborted : ∀ time failure, steps[time]? = some .analyze →
    a.analyze (treeAfter m steps time).view = .error failure →
    (stateAfter a m steps (time + 1)).statistics = (stateAfter a m steps time).statistics

end

variable {a : Analyzer} {m : Memory} {steps : List Step} {time : Nat} {state : State} {next : Step}

theorem treeAfter_succ (here : steps[time]? = some next) :
    treeAfter m steps (time + 1) = altered (treeAfter m steps time) next := by
  unfold treeAfter
  rw [List.take_add_one, here, List.foldl_append]
  rfl

/-- An analysis either comes to a result and leaves its statistics, or leaves everything as it is. -/
theorem step_analyze (state : State) :
    (∃ result statistics,
      state.analyzer.analyze state.memory.view = .ok (result, statistics) ∧
        step state .analyze = ({ state with statistics }, .analysis result statistics)) ∨
    ∃ failure, state.analyzer.analyze state.memory.view = .error failure ∧
      step state .analyze = (state, .failed failure) := by
  cases ended : state.analyzer.analyze state.memory.view with
  | ok pair =>
    obtain ⟨result, statistics⟩ := pair
    exact .inl ⟨result, statistics, rfl, by simp only [step, ended]⟩
  | error failure => exact .inr ⟨failure, rfl, by simp only [step, ended]⟩

theorem analyzer_step : (step state next).1.analyzer = state.analyzer := by
  cases next with
  | analyze => rcases step_analyze state with ⟨_, _, _, done⟩ | ⟨_, _, done⟩ <;> rw [done]
  | _ => rfl

theorem memory_step : (step state next).1.memory = altered state.memory next := by
  cases next with
  | analyze => rcases step_analyze state with ⟨_, _, _, done⟩ | ⟨_, _, done⟩ <;> rw [done] <;> rfl
  | _ => rfl

/-- In memory every path can be looked at, so a scan always comes to its end. -/
theorem refusal_scan_memory (a : Analyzer) (m : Memory) : (a.scan m.view).refusal = none :=
  Scan.refusal_scan_eq_none_iff.mpr fun _ _ => ⟨_, rfl⟩

theorem step_scan : step state .scan =
    ({ state with skipped := (state.analyzer.scan state.memory.view).found.skipped },
      .scan (state.analyzer.scan state.memory.view).found) := by
  simp only [step, refusal_scan_memory]

theorem failIn_scan (a : Analyzer) (m : Memory) : FailIn a m (a.scan m.view).found.skipped :=
  Scan.count_skipped_scan m.listsOnce _

theorem statistics_step (other : next ≠ .analyze) :
    (step state next).1.statistics = state.statistics := by
  cases next with
  | analyze => exact absurd rfl other
  | _ => rfl

theorem skipped_step (other : next ≠ .scan) : (step state next).1.skipped = state.skipped := by
  cases next with
  | scan => exact absurd rfl other
  | analyze => rcases step_analyze state with ⟨_, _, _, done⟩ | ⟨_, _, done⟩ <;> rw [done]
  | _ => rfl

theorem remembers_start : Remembers a m steps 0 (start a m) := ⟨rfl, rfl, .start, .start⟩

theorem latest_statistics_step (kept : Remembers a m steps time state)
    (here : steps[time]? = some next) :
    Latest (Counts a m steps) .zero (time + 1) (step state next).1.statistics := by
  by_cases analyzes : next = .analyze
  · subst analyzes
    have fresh : state.analyzer.analyze state.memory.view =
        a.analyze (treeAfter m steps time).view := by rw [kept.analyzer, kept.memory]
    rcases step_analyze state with ⟨result, statistics, ended, done⟩ | ⟨failure, failed, done⟩
    · rw [done]
      exact .now ⟨here, result, fresh.symm.trans ended⟩
    · rw [done]
      refine .wait ?_ kept.statistics
      intro other holds
      obtain ⟨_, result, ended⟩ := holds
      rw [← fresh, failed] at ended
      cases ended
  · rw [statistics_step analyzes]
    refine .wait ?_ kept.statistics
    intro other holds
    exact analyzes (Option.some.inj (here.symm.trans holds.1))

theorem latest_skipped_step (kept : Remembers a m steps time state)
    (here : steps[time]? = some next) :
    Latest (Notes a m steps) [] (time + 1) (step state next).1.skipped := by
  by_cases scans : next = .scan
  · subst scans
    rw [step_scan, kept.analyzer, kept.memory]
    exact .now ⟨here, rfl, failIn_scan a _⟩
  · rw [skipped_step scans]
    refine .wait ?_ kept.skipped
    intro other holds
    exact scans (Option.some.inj (here.symm.trans holds.1))

theorem remembers_step (kept : Remembers a m steps time state) (here : steps[time]? = some next) :
    Remembers a m steps (time + 1) (step state next).1 where
  analyzer := by rw [analyzer_step, kept.analyzer]
  memory := by rw [memory_step, kept.memory, treeAfter_succ here]
  statistics := latest_statistics_step kept here
  skipped := latest_skipped_step kept here

theorem run_take_succ (state : State) (here : steps[time]? = some next) :
    (run state (steps.take (time + 1))).1 = (step (run state (steps.take time)).1 next).1 := by
  induction steps generalizing state time with
  | nil => cases here
  | cons first rest ih =>
    cases time with
    | zero =>
      cases here
      rfl
    | succ time => exact ih (step state first).1 here

theorem getElem?_run (state : State) (here : steps[time]? = some next) :
    (run state steps).2[time]? = some (step (run state (steps.take time)).1 next).2 := by
  induction steps generalizing state time with
  | nil => cases here
  | cons first rest ih =>
    cases time with
    | zero =>
      cases here
      rfl
    | succ time => exact ih (step state first).1 here

/-- Each step is answered once. -/
theorem length_run (state : State) : (run state steps).2.length = steps.length := by
  induction steps generalizing state with
  | nil => rfl
  | cons first rest ih => exact congrArg (· + 1) (ih (step state first).1)

theorem lt_length_of_answer {answer : Answer} (given : (run state steps).2[time]? = some answer) :
    time < steps.length := by
  rw [← length_run state]
  exact (List.getElem?_eq_some_iff.mp given).1

/-- Whatever the steps are, all that is remembered after any number of them is what it should be. -/
theorem remembers_stateAfter (within : time ≤ steps.length) :
    Remembers a m steps time (stateAfter a m steps time) := by
  induction time with
  | zero => exact remembers_start
  | succ time ih =>
    have here : steps[time]? = some steps[time] := List.getElem?_eq_getElem within
    unfold stateAfter at ih ⊢
    rw [run_take_succ _ here]
    exact remembers_step (ih (by omega)) here

/-- A step that finds the state as it should be is answered as it should be. -/
theorem answered_step (kept : Remembers a m steps time state) :
    Answered a m steps time next (step state next).2 := by
  cases next with
  | analyze =>
    rcases step_analyze state with ⟨result, statistics, ended, done⟩ | ⟨failure, failed, done⟩
    · rw [kept.analyzer, kept.memory] at ended
      rw [done]
      exact .result ended
    · rw [kept.analyzer, kept.memory] at failed
      rw [done]
      exact .failure failed
  | scan =>
    rw [step_scan, kept.analyzer, kept.memory]
    exact .scan rfl (failIn_scan a _)
  | skipped => exact .skipped kept.skipped
  | statistics => exact .statistics kept.statistics
  | declared =>
    have answer : (step state .declared).2 = .declared a.declared := by rw [← kept.analyzer]; rfl
    rw [answer]
    exact .declared
  | write | remove | fail | heal => exact .altered (by simp)

theorem statistics_of_aborted {failure : DependencyAudit.Failure}
    (here : steps[time]? = some .analyze)
    (failed : a.analyze (treeAfter m steps time).view = .error failure) :
    (stateAfter a m steps (time + 1)).statistics = (stateAfter a m steps time).statistics := by
  have within : time < steps.length := (List.getElem?_eq_some_iff.mp here).1
  have kept := remembers_stateAfter (a := a) (m := m) within.le
  unfold stateAfter at kept ⊢
  rw [run_take_succ _ here]
  rcases step_analyze (run (start a m) (steps.take time)).1 with ⟨_, _, ended, _⟩ | ⟨_, _, done⟩
  · rw [kept.analyzer, kept.memory, failed] at ended
    cases ended
  · rw [done]

/-- One analyzer and one scanner behave in a session as if they were made anew for each run, with
the names that were declared when the session started. -/
theorem carriesNothing_of_load [Platform] {project : Path} {ignore : List Name}
    {directories : List String} {excluder : Exclusion.Excluder}
    (loaded : Analyzer.load m.view project ignore directories excluder = .ok a)
    (steps : List Step) :
    a = ⟨project, directories, excluder, a.declared⟩ ∧
      (∀ name, name ∈ a.declared ↔ Declares m.view project name ∧ name ∉ ignore) ∧
      CarriesNothing a m steps := by
  refine ⟨?_, fun name => Analyzer.mem_declared_of_load loaded, ?_⟩
  · obtain ⟨manifest, _, rfl⟩ := Analyzer.exists_manifest_of_load loaded
    rfl
  · constructor
    case remembers => exact fun time within => remembers_stateAfter within
    case answered =>
      intro time next here
      have within : time < steps.length := (List.getElem?_eq_some_iff.mp here).1
      exact ⟨_, getElem?_run _ here, answered_step (remembers_stateAfter within.le)⟩
    case aborted => exact fun time failure here failed => statistics_of_aborted here failed

attribute [local instance] Platform.standard

/-- The names stay declared when the manifest is gone. -/
theorem carriesNothing_of_sparseTree :
    Analyzer.load sparseTree.view Scan.application [] ["src"] (.none Scan.application) =
        .ok sparseAnalyzer ∧
      (run (start sparseAnalyzer sparseTree)
        [.remove (Manifest.pathIn Scan.application), .analyze, .declared]).2[2]? =
        some (.declared ["left-pad"]) := by
  refine ⟨load_sparseTree, ?_⟩
  obtain ⟨_, _, carries⟩ := carriesNothing_of_load load_sparseTree
    [.remove (Manifest.pathIn Scan.application), .analyze, .declared]
  obtain ⟨answer, given, answered⟩ := carries.answered 2 .declared rfl
  cases answered with
  | altered other => simp at other
  | declared => exact given

end DependencyAudit.Session

import DependencyAudit.Analysis
import DependencyAudit.FileSystem.Memory

namespace DependencyAudit.Session

open FileSystem

/-- One step of a session. -/
inductive Step where
  | write (path : Path) (text : String)
  | remove (path : Path)
  | fail (path : Path) (outage : Outage)
  | heal (path : Path)
  | analyze
  | scan
  /-- The directories that the last scan could not list. -/
  | skipped
  /-- The statistics of the last analysis that came to a result. -/
  | statistics
  | declared
  deriving DecidableEq, Repr

/-- What a step answers. -/
inductive Answer where
  | none
  | analysis (result : Result) (statistics : Statistics)
  | scan (found : Scan.Found)
  | skipped (directories : List Path)
  | statistics (s : Statistics)
  | declared (names : List Name)
  | failed (failure : DependencyAudit.Failure)
  deriving DecidableEq, Repr

/-- Where a session stands. -/
structure State where
  analyzer : Analyzer
  memory : Memory
  /-- The statistics of the last analysis that came to a result. -/
  statistics : Statistics
  /-- The directories that the last scan could not list. -/
  skipped : List Path

/-- The start of a session. -/
def start (analyzer : Analyzer) (memory : Memory) : State := ⟨analyzer, memory, .zero, []⟩

/-- Does one step and answers it. -/
def step (state : State) : Step → State × Answer
  | .write path text => ({ state with memory := state.memory.write path text }, .none)
  | .remove path => ({ state with memory := state.memory.remove path }, .none)
  | .fail path outage => ({ state with memory := state.memory.fail path outage }, .none)
  | .heal path => ({ state with memory := state.memory.heal path }, .none)
  | .analyze =>
    match state.analyzer.analyze state.memory.view with
    | .error failure => (state, .failed failure)
    | .ok (result, statistics) =>
      ({ state with statistics := statistics }, .analysis result statistics)
  | .scan =>
    let outcome := state.analyzer.scan state.memory.view
    ({ state with skipped := outcome.found.skipped },
      match outcome.refusal with
      | some refusal => .failed (.access refusal)
      | .none => .scan outcome.found)
  | .skipped => (state, .skipped state.skipped)
  | .statistics => (state, .statistics state.statistics)
  | .declared => (state, .declared state.analyzer.declared)

/-- Does steps one after the other and answers each. -/
def run (state : State) : List Step → State × List Answer
  | [] => (state, [])
  | first :: rest =>
    let (state, answer) := step state first
    let (state, answers) := run state rest
    (state, answer :: answers)

end DependencyAudit.Session

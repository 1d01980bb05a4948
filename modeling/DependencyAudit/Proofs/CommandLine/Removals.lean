import DependencyAudit.Proofs.Analysis
import DependencyAudit.Proofs.CommandLine.Options
import DependencyAudit.Proofs.CommandLine.Preparing
import DependencyAudit.Proofs.Removal.Dialogue

namespace DependencyAudit.CommandLine

open Conversation FileSystem Removal

section

variable [Platform]

/-- Events in which a dialogue removes some of what an audit of the project finds to be unused. -/
def Uninstalls (world : World) (o : Options) (project : Path) (events : List Event) : Prop :=
  ∃ settings analyzer result statistics manager,
    Settings.load world.disk project = .ok settings ∧
    analyzerOf world.disk.view o settings project = .ok analyzer ∧
    analyzer.analyze world.disk.view = .ok (result, statistics) ∧ o.interactive ∧
    Removes (statusConsole o) world.runner project manager result.unused events

variable {world : World} {o : Options} {project : Path}

omit [Platform] in
theorem silent_save {disk : Disk} {result : Result} : Silent (save disk o result) := by
  unfold save
  split
  · exact silent_pure _
  · exact (silent_ofExcept _ _).bind fun _ => (silent_note ⟨rfl, rfl⟩).bind fun _ => silent_pure _

theorem silent_present {result : Result} {statistics : Statistics} :
    Silent (present o result statistics) := by
  unfold present
  split
  · exact silent_note (.printed _ _)
  dsimp only
  split
  on_goal 1 =>
    refine (silent_ofExcept _ _).bind fun _ => (silent_note (.printed _ _)).bind fun _ => ?_
  -- With the summary or without it, the listing follows.
  all_goals
    refine (silent_forM (silent_tell _) _).bind fun _ => ?_
    split
    · exact silent_pure _
    · exact silent_say _ _

/-- A run offers removals only where it is asked to. -/
theorem runsOnly_offerRemoval {disk : Disk} {settings : Settings} {unused : List Name} :
    RunsOnly (offerRemoval world disk o settings project unused) fun events => o.interactive ∧
      ∃ manager, Removes (statusConsole o) world.runner project manager unused events := by
  unfold offerRemoval
  split
  next asked =>
    refine .after_ofExcept ?_
    intro manager _
    refine (RunsOnly.mono runsOnly_dialogue ?_).silent_after fun _ => silent_pure _
    intro events removes
    exact ⟨asked.1, manager, removes⟩
  next => exact .of_silent (silent_pure _)

/-- An audit removes only what its own analysis has found to be unused. -/
theorem runsOnly_audit : RunsOnly (audit world o project) (Uninstalls world o project) := by
  unfold audit
  refine .after_ofExcept ?_
  intro settings loaded
  dsimp only
  refine .after_ite (silent_say _ _) (.after_ofExcept ?_)
  intro analyzer made
  refine .after_silent (silent_forM (fun path => silent_note ⟨rfl, rfl⟩) _) ?_
  intro _
  refine .after_ofExcept ?_
  intro answer analyzed
  obtain ⟨result, statistics⟩ := answer
  refine .after_silent silent_save ?_
  intro disk
  refine .after_silent silent_present ?_
  intro _
  have offered : RunsOnly (offerRemoval world disk o settings project result.unused)
      (Uninstalls world o project) := by
    refine runsOnly_offerRemoval.mono ?_
    intro events holds
    obtain ⟨on, manager, removes⟩ := holds
    exact ⟨settings, analyzer, result, statistics, manager, loaded, made, analyzed, on, removes⟩
  exact offered.silent_after fun _ => silent_pure _

/-- What is told from the arguments alone is the resolved path of the project. -/
theorem meets_prepare : Meets (prepare world o) fun events ending => Quiet events ∧
    ∀ project, ending = .ok project → world.disk.realPath (projectPath o) = .ok project := by
  refine (preparesTo_prepare world o).mono fun events ending prepares => ?_
  cases prepares with
  | ready prepared => exact ⟨.nil, fun project same => Except.ok.inj same ▸ prepared.resolved⟩
  | nulCharacter _ | tooMany _ | linkLoop _ => exact ⟨.nil, by simp⟩
  | unknownManager _ _ _ => exact ⟨.printed _ _, by simp⟩

theorem silent_answer {request : Request} : Silent (answer o request) := by
  refine (answersTo_answer o request).mono fun events ending answers => ?_
  cases answers with
  | version _ | help => exact .printed _ _
  | completion _ => exact Quiet.append (.printed _ _) (.printed _ _)
  | nulCharacter _ => exact .nil

theorem silent_report (failure : Failure) : Silent (report failure) :=
  (silent_say _ _).bind fun _ => silent_pure _

/-- A run removes only from the project that the arguments lead to. -/
theorem runsOnly_performReporting (world : World) (o : Options) :
    RunsOnly (performReporting world o) fun events => ∃ project,
      world.disk.realPath (projectPath o) = .ok project ∧ Uninstalls world o project events := by
  have performs : RunsOnly (perform world o) fun events => ∃ project,
      world.disk.realPath (projectPath o) = .ok project ∧ Uninstalls world o project events := by
    unfold perform
    split
    · exact .of_silent silent_answer
    · refine .after_quiet meets_prepare (fun _ _ prepared => prepared.1) ?_
      intro _ project prepared
      exact runsOnly_audit.mono fun events uninstalls =>
        ⟨project, prepared.2 project rfl, uninstalls⟩
  refine performs.silent_catch ?_
  intro stop
  split
  · split
    · exact silent_report _
    · exact silent_throw _
  · exact silent_throw _

omit [Platform] in
/-- The end of a run adds at most a notice to its transcript. -/
theorem transcript_conclude (ending : Except Ending Nat) (desk : Desk) :
    ∃ more, Quiet more ∧ (conclude ending desk).transcript = desk.transcript ++ more := by
  unfold conclude
  split
  · exact ⟨[], .nil, (List.append_nil _).symm⟩
  · exact ⟨[], .nil, (List.append_nil _).symm⟩
  · exact ⟨[abortNotice], .printed _ _, rfl⟩
  · exact ⟨[], .nil, (List.append_nil _).symm⟩

/-- The lines of an input, as a run reads them. -/
def linesOf (input : String) : List String :=
  (Text.bareLines (Text.unifyLineEnds input.toList)).map String.ofList

/-- The project declares the package and does not ignore it, and of the files that its settings and
the options let an analysis scan, none refers to it. -/
def Dispensable (disk : Disk) (o : Options) (project : Path) (package : Name) : Prop :=
  ∃ settings ignored analyzer, Settings.load disk project = .ok settings ∧
    settings.ignore = .ok ignored ∧ analyzerOf disk.view o settings project = .ok analyzer ∧
    Declares disk.view project package ∧ package ∉ ignored ++ o.ignore.map Name.ofString ∧
    ∀ path ∈ (analyzer.scan disk.view).found.files,
      ∃ text, disk.view.read path = .ok text ∧
        ∀ reference ∈ Import.references text, package ≠ .ofString reference

/-- Events in which packages have been listed, each with its number, an answer has then picked these
ones, and of the lines after that answer the last one has said yes. -/
def Picked (console : Console) (packages : List Name) (events : List Event) : Prop :=
  ∃ (listed : List Name) (answer : String) (skipped : List String) (last : String)
    (shown asked : List Event), events = shown ++ asked ∧
    (∀ name number, (name, number) ∈ listed.zipIdx 1 → ∃ text,
      paged console (name.between s!"  {number}. [cyan]" "[/]") = .ok text ∧
        .printed console.stream text ∈ shown) ∧
    answersIn shown = [] ∧ answersIn asked = answer :: skipped ++ [last] ∧
    (∀ package ∈ packages, ∃ number, (package, number) ∈ listed.zipIdx 1 ∧
      (PicksAll answer ∨ Mentions answer number)) ∧
    (∀ line ∈ skipped, ¬ Says ["y", "yes", "n", "no"] line) ∧ Says ["y", "yes"] last

/-- Why packages of a project may be removed after some events of a run. -/
structure Justified (disk : Disk) (input : String) (o : Options) (project : Path)
    (packages : List Name) (before : List Event) : Prop where
  interactive : o.interactive
  resolved : disk.realPath (projectPath o) = .ok project
  dispensable : ∀ package ∈ packages, Dispensable disk o project package
  ascending : packages.Pairwise (· < ·)
  picked : Picked (statusConsole o) packages before
  /-- What has been answered is how the input starts. -/
  answered : answersIn before <+: linesOf input

/-- The directories to scan: those of the options, or else those of the settings. -/
def directoriesOf (o : Options) (settings : Settings) : Except Failure (List String) :=
  match Settings.splitDirectories o.directories with
  | none => settings.directories.mapError .configuration
  | some directories => .ok directories

/-- An analyzer is made of four settings, asked for one after the other, and of the manifest. -/
theorem analyzerOf_eq_bind (view : View) (o : Options) (settings : Settings) (project : Path) :
    analyzerOf view o settings project = (do
      let ignored ← settings.ignore.mapError .configuration
      let directories ← directoriesOf o settings
      let exclusions ← settings.exclusions.mapError .configuration
      let excluder ← (Exclusion.Excluder.ofLines project exclusions o.exclude).mapError .pattern
      Analyzer.load view project (ignored ++ o.ignore.map Name.ofString) directories excluder) := by
  unfold analyzerOf directoriesOf
  cases settings.ignore with
  | error c => rfl
  | ok ignored => cases Settings.splitDirectories o.directories <;> rfl

theorem exists_load_of_analyzerOf {view : View} {settings : Settings} {analyzer : Analyzer}
    (made : analyzerOf view o settings project = .ok analyzer) :
    ∃ ignored directories excluder, settings.ignore = .ok ignored ∧
      Analyzer.load view project (ignored ++ o.ignore.map Name.ofString) directories excluder =
        .ok analyzer := by
  rw [analyzerOf_eq_bind] at made
  obtain ⟨ignored, ignores, made⟩ := Except.bind_eq_ok_iff.mp made
  obtain ⟨directories, -, made⟩ := Except.bind_eq_ok_iff.mp made
  obtain ⟨exclusions, -, made⟩ := Except.bind_eq_ok_iff.mp made
  obtain ⟨excluder, -, made⟩ := Except.bind_eq_ok_iff.mp made
  exact ⟨ignored, directories, excluder, Except.mapError_eq_ok_iff.mp ignores, made⟩

theorem dispensable_of_mem_unused {disk : Disk} {settings : Settings} {analyzer : Analyzer}
    {result : Result} {statistics : Statistics} (loaded : Settings.load disk project = .ok settings)
    (made : analyzerOf disk.view o settings project = .ok analyzer)
    (analyzed : analyzer.analyze disk.view = .ok (result, statistics)) {package : Name}
    (unused : package ∈ result.unused) : Dispensable disk o project package := by
  obtain ⟨ignored, directories, excluder, ignores, load⟩ := exists_load_of_analyzerOf made
  have reconciles := Analyzer.reconciles_of_analyze analyzed
  obtain ⟨readable, _⟩ := Analyzer.exists_result_iff.mp ⟨result, statistics, analyzed⟩
  obtain ⟨declared, nowhere⟩ := (reconciles.mem_unused package).mp unused
  obtain ⟨declares, kept⟩ := (Analyzer.mem_declared_of_load load).mp declared
  refine ⟨settings, ignored, analyzer, loaded, ignores, made, declares, kept, ?_⟩
  intro path scanned
  obtain ⟨text, read⟩ := readable path scanned
  refine ⟨text, read, fun reference refers named => nowhere ?_⟩
  exact ⟨path, scanned, text, read, reference, refers, named⟩

/-- What is removed has been listed under the numbers by which it is picked. -/
theorem picked_of_parse {console : Console} {unused : List Name} {shown asked : List Event}
    {answer : String} {lines : List String} {selection : Selection} (quiet : Quiet shown)
    (listed : ∀ markup ∈ choices unused, ∃ text, paged console markup = .ok text ∧
      .printed console.stream text ∈ shown)
    (answers : answersIn asked = answer :: lines) (confirmed : Confirmed lines)
    (parsed : Selection.parse answer unused.length = .ok selection) :
    Picked console (selection.pick unused) (shown ++ asked) := by
  obtain ⟨skipped, last, rfl, passed, confirms⟩ := confirmed
  refine ⟨unused, answer, skipped, last, shown, asked, rfl, ?_, quiet.answers, answers, ?_, passed,
    confirms⟩
  · intro name number member
    refine listed _ (List.mem_cons_of_mem _ (List.mem_append_left _ ?_))
    exact List.mem_map.mpr ⟨(name, number), member, rfl⟩
  · intro package member
    obtain ⟨n, index, there⟩ := Selection.mem_pick.mp member
    obtain ⟨_, how⟩ := Selection.of_mem_indices parsed index
    exact ⟨n + 1, List.mk_mem_zipIdx_iff_le_and_getElem?_sub.mpr ⟨Nat.le_add_left 1 n, there⟩, how⟩

theorem justified_of_amid {events : List Event}
    (answered : answersIn events <+: linesOf world.input)
    (amid : Amid (fun part => ∃ project, world.disk.realPath (projectPath o) = .ok project ∧
      Uninstalls world o project part) events) :
    ∃ project manager packages before call status after,
      events = before ++ .called call.command call.directory :: after ∧ callsIn events = [call] ∧
      world.runner (Manager.removalCommand manager packages) project = .ok (call, status) ∧
      Justified world.disk world.input o project packages before := by
  obtain ⟨first, part, last, rfl, quietFirst, quietLast, project, resolved, uninstalls⟩ := amid
  obtain ⟨settings, analyzer, result, statistics, manager, loaded, made, analyzed, on,
    removes⟩ := uninstalls
  obtain ⟨shown, asked, after, call, status, answer, lines, selection, rfl, quietShown, noCalls,
    quietAfter, listed, answers, confirmed, parsed, ran⟩ := removes
  have whole : first ++ (shown ++ asked ++ .called call.command call.directory :: after) ++ last =
      first ++ shown ++ asked ++ .called call.command call.directory :: (after ++ last) := by simp
  have once : callsIn (first ++ shown ++ asked ++
      [.called call.command call.directory] ++ (after ++ last)) = [call] := by
    simp only [callsIn_append, quietFirst.calls, quietShown.calls, noCalls, quietAfter.calls,
      quietLast.calls]
    rfl
  refine ⟨project, manager, selection.pick result.unused, first ++ shown ++ asked, call, status,
    after ++ last, whole, ?_, ran, ?_⟩
  · rw [whole, ← once, List.append_assoc _ [_]]
    rfl
  constructor
  case interactive => exact on
  case resolved => exact resolved
  case dispensable =>
    intro package member
    obtain ⟨n, _, there⟩ := Selection.mem_pick.mp member
    exact dispensable_of_mem_unused loaded made analyzed (List.mem_of_getElem? there)
  case ascending =>
    have reconciles := Analyzer.reconciles_of_analyze analyzed
    exact Selection.pairwise_pick parsed reconciles.unused_ascending
  case picked =>
    refine picked_of_parse (quietFirst.append quietShown) ?_ answers confirmed parsed
    intro markup member
    obtain ⟨text, laid, printed⟩ := listed markup member
    exact ⟨text, laid, List.mem_append_right _ printed⟩
  case answered =>
    rw [whole, answersIn_append] at answered
    exact (List.prefix_append _ _).trans answered

/-- A run is a conversation that starts with the whole input. -/
theorem run_eq_conclude {arguments : List String} (read : Options.read? arguments = some o) :
    run world arguments = conclude ((performReporting world o).run ⟨linesOf world.input, []⟩).1
      ((performReporting world o).run ⟨linesOf world.input, []⟩).2 := by
  rw [run, read]
  rfl

/-- Whatever runs the programs, a run of this one has at most one of them run. -/
theorem calls_run (world : World) (arguments : List String) :
    (run world arguments).calls = [] ∨ ∃ o project manager packages before call status after,
      Options.read? arguments = some o ∧
      (run world arguments).transcript =
        before ++ .called call.command call.directory :: after ∧
      (run world arguments).calls = [call] ∧
      world.runner (Manager.removalCommand manager packages) project = .ok (call, status) ∧
      Justified world.disk world.input o project packages before := by
  cases read : Options.read? arguments with
  | none =>
    left
    rw [run, read]
    rfl
  | some o =>
    rw [run_eq_conclude read]
    obtain ⟨events, grown, taken, holds⟩ :=
      runsOnly_performReporting world o ⟨linesOf world.input, []⟩
    generalize (performReporting world o).run ⟨linesOf world.input, []⟩ = ran at *
    obtain ⟨more, quiet, same⟩ := transcript_conclude ran.1 ran.2
    rw [grown, List.nil_append] at same
    have calls : (conclude ran.1 ran.2).calls = callsIn events := by
      change callsIn (conclude ran.1 ran.2).transcript = _
      rw [same, callsIn_append, quiet.calls, List.append_nil]
    rw [calls, same]
    rcases holds with noCalls | amid
    · exact .inl noCalls
    have answered : answersIn events <+: linesOf world.input := ⟨ran.2.answers, taken.symm⟩
    obtain ⟨project, manager, packages, before, call, status, after, rfl, once, removal,
      justified⟩ := justified_of_amid answered amid
    exact .inr ⟨o, project, manager, packages, before, call, status, after ++ more, rfl,
      List.append_assoc _ _ _, once, removal, justified⟩

/-- A run removes packages at most once. What it removes is in no use, has been picked and has been
confirmed. -/
theorem removals_justified (disk : Disk) (input : String) (status : Int)
    (arguments : List String) :
    let outcome := run ⟨disk, input, .recorder status⟩ arguments
    outcome.calls = [] ∨ ∃ o project manager packages before after,
      "--interactive" ∈ arguments ∧ Options.read? arguments = some o ∧
      outcome.calls = [⟨Manager.removalCommand manager packages, project⟩] ∧
      outcome.transcript =
        before ++ .called (manager.removalCommand packages) project :: after ∧
      Justified disk input o project packages before := by
  intro outcome
  rcases calls_run ⟨disk, input, .recorder status⟩ arguments with noCalls | ⟨o, project,
    manager, packages, before, call, _, after, read, transcript, calls, ran, justified⟩
  · exact .inl noCalls
  · cases ran
    exact .inr ⟨o, project, manager, packages, before, after,
      Options.mem_of_interactive read justified.interactive, read, calls, transcript, justified⟩

end

end DependencyAudit.CommandLine

import DependencyAudit.Proofs.CommandLine.Escapes
import DependencyAudit.Proofs.CommandLine.Survey

namespace DependencyAudit.CommandLine

open Conversation FileSystem Removal

section

variable [Platform] {world : World} {o : Options} {project : Path} {c : Configuration}

/-- What is told before an audit goes on: nothing or, where it is asked for, where the settings
are. -/
inductive Announces (o : Options) (project : Path) : List Event → Prop
  | nothing : Announces o project []
  | settings {text : String} :
      o.verbose → Terminal.page consoleWidth s!"[dim]Using config:[/] {Settings.pathIn project}" =
        .ok text → Announces o project [.printed (statusConsole o).stream text]

/-- An audit comes to a result with unused packages and is to offer removals, and the package manager
of the settings is none. -/
structure RefusesManager (world : World) (o : Options) (project : Path) (analyzer : Analyzer)
    (result : Result) (c : Configuration) : Prop where
  interactive : o.interactive
  unnamed : o.manager = none
  unused : result.unused ≠ []
  analyzed : ∃ statistics, analyzer.analyze world.disk.view = .ok (result, statistics)
  refused : ∃ settings, Settings.load world.disk project = .ok settings ∧
    analyzerOf world.disk.view o settings project = .ok analyzer ∧ settings.manager? = .error c

/-- Events in which a result is printed for people or as the document. -/
def Presents (o : Options) (result : Result) (events : List Event) : Prop :=
  (∀ event ∈ events, ∃ text, event = .printed .output text) ∧
    (o.json → events = [.printed .output (Report.document result ++ "\n")])

/-- The events after which a fault of the configuration ends an audit. -/
inductive EndsAfter (world : World) (o : Options) (project : Path) (c : Configuration) :
    List Event → Prop
  | settings :
      Settings.load world.disk project = .error (.configuration c) →
        EndsAfter world o project c []
  | analyzer {settings : Settings} {told : List Event} :
      Settings.load world.disk project = .ok settings →
        analyzerOf world.disk.view o settings project = .error (.configuration c) →
        Announces o project told → EndsAfter world o project c told
  | manager {analyzer : Analyzer} {result : Result} {told shown : List Event} :
      RefusesManager world o project analyzer result c → Announces o project told →
        Presents o result shown →
        EndsAfter world o project c
          (told ++ ((analyzer.scan world.disk.view).found.files.map .opened ++
            (saving o result ++ shown)))

/-- The conversation does not end with a fault of the configuration. -/
def Unconfigured : Ending → Prop
  | .failed (.configuration _) => False
  | _ => True

omit [Platform] in
theorem unconfigured_of_breaks {stream : Stream} {p : Text.Point} {failure : Failure}
    (breaks : Breaks stream p failure) : Unconfigured (.failed failure) := by
  cases breaks <;> trivial

section

variable {β : Type} {P : List Event → Except Ending β → Prop} {rest : Conversation β}
  {p : Prop} [Decidable p]

/-- What comes after the place of the settings, told or not. -/
theorem meets_after_announcement (verbose : p → o.verbose)
    (early : ∀ fault, P [] (.error (.failed (.markup fault))))
    (next : ∀ told, Announces o project told →
      Meets rest fun more ending => P (told ++ more) ending) :
    Meets (if p then
      say (statusConsole o) s!"[dim]Using config:[/] {Settings.pathIn project}" >>= fun _ => rest
      else rest) P := by
  split
  next told =>
    exact .say_bind_cases (fun fault _ => early fault) fun text laid =>
      next _ (.settings (verbose told) laid)
  next => exact next [] .nothing

end

omit [Platform] in
theorem unconfigured_of_analyze {analyzer : Analyzer} {view : View} {failure : Failure}
    (failed : analyzer.analyze view = .error failure) : Unconfigured (.failed failure) := by
  rcases Analyzer.analyze_eq_error_iff.mp failed with unreadable | ⟨_, -, _, -, rfl⟩
  · obtain ⟨_, -, _, -, rfl⟩ := Analyzer.exists_refusal_of_readAll unreadable
    trivial
  · trivial

theorem presents_present {result : Result} {statistics : Statistics} :
    Meets (present o result statistics) fun events ending =>
      (ending = .ok () → Presents o result events) ∧
        ∀ stop, ending = .error stop → Unconfigured stop := by
  have ends : Ends (fun _ => True) Anything Unconfigured (present o result statistics) :=
    ends_present_of (fun _ _ _ _ _ _ => unconfigured_of_breaks) (fun _ _ _ _ _ => trivial)
      fun _ _ _ _ => trivial
  refine ends.meets ?_
  by_cases json : o.json
  · rw [present, if_pos json]
    refine (meets_note _ rfl).mono fun events ending noted _ => ?_
    obtain ⟨rfl, -⟩ := noted
    exact ⟨fun event member => ⟨_, List.mem_singleton.mp member⟩, fun _ => rfl⟩
  · have prints : Stays (fun event => ∃ text, event = .printed .output text) AnyEnding
        (present o result statistics) :=
      stays_present (fun _ => trivial) fun text => ⟨text, rfl⟩
    exact Meets.mono prints fun events ending stays _ => ⟨stays.1, fun on => absurd on json⟩

omit [Platform] in
/-- Whether removals can be offered depends on the package manager of the settings, where the options
name none. -/
theorem configuration_of_managerOf {disk : Disk} {settings : Settings}
    (failed : managerOf disk o settings project = .error (.configuration c)) :
    o.manager = none ∧ settings.manager? = .error c := by
  unfold managerOf at failed
  split at failed
  next => cases failed
  next unnamed =>
    rcases Except.bind_eq_error_iff.mp failed with unset | ⟨setting, -, failed⟩
    · obtain ⟨_, refused, same⟩ := Except.mapError_eq_error_iff.mp unset
      cases same
      exact ⟨unnamed, refused⟩
    · cases setting with
      | some manager => cases failed
      | none =>
        obtain ⟨_, -, same⟩ := Except.mapError_eq_error_iff.mp failed
        cases same

/-- Programs that are run to remove packages find no fault in the configuration. -/
def LeavesConfiguration (runner : Runner) : Prop :=
  ∀ command directory c, runner command directory ≠ .error (.configuration c)

omit [Platform] in
theorem leavesConfiguration_recorder (status : Int) :
    LeavesConfiguration (.recorder status) := fun _ _ _ same => by cases same

omit [Platform] in
theorem ne_configuration_of_argumentFault? {argument : Name} {c : Configuration} :
    argumentFault? argument ≠ some (.configuration c) := by
  unfold argumentFault?
  split
  · nofun
  · split <;> nofun

omit [Platform] in
theorem leavesConfiguration_ofDisk (disk : Disk) (programs : Path) :
    LeavesConfiguration (.ofDisk disk programs) := by
  intro command directory c failed
  cases command with
  | nil => cases failed
  | cons name arguments =>
    unfold Runner.ofDisk at failed
    dsimp only at failed
    split at failed
    · cases failed
    split at failed
    · cases failed
    unfold runAt at failed
    dsimp only at failed
    split at failed
    next fault found =>
      obtain ⟨argument, -, faulty⟩ := List.exists_of_findSome?_eq_some found
      cases failed
      exact ne_configuration_of_argumentFault? faulty
    split at failed
    · cases failed
    rcases Except.bind_eq_error_iff.mp failed with nowhere | ⟨place, -, failed⟩
    · obtain ⟨_, -, same⟩ := Except.mapError_eq_error_iff.mp nowhere
      cases same
    split at failed
    · cases failed
    rcases Except.bind_eq_error_iff.mp failed with absent | ⟨node, -, failed⟩
    · obtain ⟨_, -, same⟩ := Except.mapError_eq_error_iff.mp absent
      cases same
    split at failed
    · split at failed
      all_goals cases failed
    · cases failed

theorem configuration_of_offerRemoval {disk : Disk} {settings : Settings} {unused : List Name}
    (prepared : Prepared world.disk o project) (leaves : LeavesConfiguration world.runner) :
    Meets (offerRemoval world disk o settings project unused) fun events ending =>
      ∀ c, ending = .error (.failed (.configuration c)) → events = [] ∧ o.interactive ∧
        o.manager = none ∧ unused ≠ [] ∧ settings.manager? = .error c := by
  unfold offerRemoval
  split
  next asked =>
    refine .ofExcept_bind_cases (fun failure failed c same => ?_) fun manager chosen => ?_
    · cases same
      obtain ⟨unnamed, refused⟩ := configuration_of_managerOf failed
      exact ⟨rfl, asked.1, unnamed, asked.2, refused⟩
    have known := mem_known_of_managerOf prepared chosen
    have talks : Ends (fun _ => True) Anything Unconfigured
        (dialogue (statusConsole o) world.runner project manager unused) := by
      refine ends_dialogue (fun _ _ _ _ _ => unconfigured_of_breaks) (fun _ => trivial) ?_
        (Manager.not_mem_name_of_mem_known known) trivial (fun _ _ _ _ _ _ => trivial)
        fun _ _ _ _ _ => trivial
      intro packages failure _ failed
      cases failure with
      | configuration c => exact leaves _ _ c failed
      | _ => trivial
    have whole : Ends (fun _ => True) Anything Unconfigured (do
        let outcome ← dialogue (statusConsole o) world.runner project manager unused
        return unused.filter (· ∉ outcome.removed)) :=
      talks.bind fun _ _ => .of_pure trivial
    refine (whole.meets (runsOnly_dialogue.silent_after fun _ => silent_pure _)).mono ?_
    intro events ending holds c same
    exact (holds.2 _ same).elim
  next => exact .of_pure fun _ same => by cases same

/-- A fault of the configuration ends an audit at one of three places. -/
theorem endsAfter_audit (prepared : Prepared world.disk o project)
    (leaves : LeavesConfiguration world.runner) :
    Meets (audit world o project) fun events ending =>
      ∀ c, ending = .error (.failed (.configuration c)) → EndsAfter world o project c events := by
  -- Step by step. Three steps can find a fault of the configuration: loading the settings, making
  -- the analyzer, and asking for the package manager.
  unfold audit
  refine .ofExcept_bind_cases (fun failure failed c same => ?_) fun settings loaded => ?_
  · cases same
    exact .settings failed
  dsimp only
  refine meets_after_announcement And.left (fun _ _ same => by cases same) fun told announces => ?_
  refine .ofExcept_bind_cases (fun failure failed c same => ?_) fun analyzer made => ?_
  · cases same
    rw [List.append_nil]
    exact .analyzer loaded failed announces
  refine (meets_forM_note (fun _ => rfl) _).bind (fun _ _ noted => by cases noted.2)
    fun opened _ noted => ?_
  obtain ⟨rfl, -⟩ := noted
  refine .ofExcept_bind_cases (fun failure failed c same => ?_) fun answer analyzed => ?_
  · cases same
    exact (unconfigured_of_analyze failed).elim
  obtain ⟨result, statistics⟩ := answer
  refine meets_save.bind (fun events stop saved c same => ?_) fun events written saved => ?_
  · obtain ⟨-, -, refusal, rfl⟩ := saved.2 stop rfl
    cases same
  obtain ⟨rfl, -⟩ := saved.1 written rfl
  refine presents_present.bind (fun events stop presented c same => ?_) fun shown _ presented => ?_
  · cases same
    exact (presented.2 _ rfl).elim
  refine (configuration_of_offerRemoval prepared leaves).bind
    (fun events stop refused c same => ?_) fun _ _ _ => .of_pure fun _ same => ?_
  · cases same
    obtain ⟨rfl, interactive, unnamed, unused, refused⟩ := refused c rfl
    have refuses : RefusesManager world o project analyzer result c :=
      ⟨interactive, unnamed, unused, ⟨statistics, analyzed⟩, settings, loaded, made, refused⟩
    rw [List.append_nil, Analyzer.filesRead_of_analyze analyzed]
    exact .manager refuses announces (presented.1 rfl)
  · cases same

/-- A fault of the configuration ends a run only once the arguments have led to a project. -/
theorem endsAfter_performed (leaves : LeavesConfiguration world.runner)
    (failed : (performed world o).1 = .error (.failed (.configuration c))) :
    ∃ project, Prepared world.disk o project ∧
      EndsAfter world o project c (performed world o).2.transcript := by
  have performs : Meets (perform world o) fun events ending =>
      ∀ c, ending = .error (.failed (.configuration c)) →
        ∃ project, Prepared world.disk o project ∧ EndsAfter world o project c events := by
    cases asked : o.request? with
    | some request =>
      have answers : perform world o = answer o request := by rw [perform, asked]
      rw [answers]
      refine (answersTo_answer o request).mono fun events ending holds c same => ?_
      cases same
      cases holds
    | none =>
    rw [perform_of_noRequest world (request?_eq_none_iff.mp asked)]
    refine (preparesTo_prepare world o).bind (fun events stop prepares c same => ?_)
      fun events project prepares => ?_
    · cases same
      cases prepares
    · cases prepares with
      | ready prepared =>
        exact (endsAfter_audit prepared leaves).mono fun more ending ends c same =>
          ⟨project, prepared, ends c same⟩
  obtain ⟨events, grown, -, holds⟩ := performs ⟨linesOf world.input, []⟩
  rw [List.nil_append] at grown
  unfold performed at failed ⊢
  rw [grown]
  exact holds c failed

/-- The outcome of a run that reports a fault of the configuration after some events. A message that
cannot be laid out ends it all the same. -/
inductive Reports (c : Configuration) (events : List Event) : Outcome → Prop
  | line {text : String} :
      Terminal.page consoleWidth (errorLine c.message) = .ok text →
        Reports c events ⟨1, events ++ [.printed .error text], none⟩
  | refused {fault : Terminal.MarkupFault} :
      Terminal.page consoleWidth (errorLine c.message) = .error fault →
        Reports c events ⟨1, events, some (.markup fault)⟩

theorem reports_run {arguments : List String} (read : Options.read? arguments = some o)
    (failed : (performed world o).1 = .error (.failed (.configuration c))) :
    Reports c (performed world o).2.transcript (run world arguments) := by
  rw [run_of_reported world read (Prod.ext failed rfl) rfl]
  have message : (Failure.configuration c).message = c.message := rfl
  cases laid : Terminal.page consoleWidth (errorLine c.message) with
  | ok text =>
    rw [run_report (message ▸ laid)]
    exact .line laid
  | error fault =>
    rw [run_report_of_refused (message ▸ laid)]
    exact .refused laid

/-- A fault of the configuration has been found beforehand: nothing has been done but to tell where the
settings are, where this is asked for, and to report the fault. -/
structure Beforehand (disk : Disk) (o : Options) (project : Path) (c : Configuration)
    (outcome : Outcome) : Prop where
  reports : ∃ told, Announces o project told ∧ Reports c told outcome
  /-- No source file has been opened. -/
  opened : ∀ path, .opened path ∉ outcome.transcript
  /-- Neither the document nor a report stands on the output. -/
  output : outcome.printed .output = "" ∨ o.verbose ∧ o.json = false ∧
    Terminal.page consoleWidth s!"[dim]Using config:[/] {Settings.pathIn project}" =
      .ok (outcome.printed .output)
  /-- No line of input has been read. -/
  answers : answersIn outcome.transcript = []
  calls : outcome.calls = []
  disk : outcome.diskAfter disk = disk

/-- A fault of the configuration has been found when all else was done: the source files have been read,
and the result has been saved and printed. -/
def Belated (world : World) (o : Options) (project : Path) (analyzer : Analyzer) (result : Result)
    (c : Configuration) (outcome : Outcome) : Prop :=
  ∃ told shown, Announces o project told ∧ Presents o result shown ∧
    Reports c (told ++ ((analyzer.scan world.disk.view).found.files.map .opened ++
      (saving o result ++ shown))) outcome

theorem beforehand_of_reports {disk : Disk} {told : List Event} {outcome : Outcome}
    (announces : Announces o project told) (reports : Reports c told outcome) :
    Beforehand disk o project c outcome := by
  have whole : ∃ told, Announces o project told ∧ Reports c told outcome :=
    ⟨told, announces, reports⟩
  cases announces with
  | nothing =>
    cases reports with
    | line _ | refused _ => exact ⟨whole, by simp, .inl rfl, rfl, rfl, rfl⟩
  | settings verbose laid =>
    cases json : o.json with
    | true =>
      rw [statusConsole, if_pos json] at reports
      cases reports with
      | line _ | refused _ => exact ⟨whole, by simp, .inl rfl, rfl, rfl, rfl⟩
    | false =>
      rw [statusConsole, if_neg (by simp [json])] at reports
      cases reports with
      | line _ | refused _ =>
        refine ⟨whole, by simp, .inr ⟨verbose, json, ?_⟩, rfl, rfl, rfl⟩
        simpa [Outcome.printed, console, String.join] using laid

/-- The package manager of the settings is refused at one place of one audit. -/
theorem RefusesManager.unique {analyzer analyzer' : Analyzer} {result result' : Result}
    {c' : Configuration} (refuses : RefusesManager world o project analyzer result c)
    (refuses' : RefusesManager world o project analyzer' result' c') :
    analyzer = analyzer' ∧ result = result' := by
  obtain ⟨settings, loaded, made, -⟩ := refuses.refused
  obtain ⟨settings', loaded', made', -⟩ := refuses'.refused
  cases loaded.symm.trans loaded'
  cases made.symm.trans made'
  obtain ⟨statistics, analyzed⟩ := refuses.analyzed
  obtain ⟨statistics', analyzed'⟩ := refuses'.analyzed
  cases analyzed.symm.trans analyzed'
  exact ⟨rfl, rfl⟩

/-- A fault of the configuration that ends a run is found beforehand, unless it is the package manager of
the settings that is refused: this is found when all else is done. -/
theorem configuration_beforehand (world : World) (leaves : LeavesConfiguration world.runner)
    {arguments : List String} {o : Options} {c : Configuration}
    (read : Options.read? arguments = some o)
    (failed : (performed world o).1 = .error (.failed (.configuration c))) :
    ∃ project, Prepared world.disk o project ∧
      ((∀ analyzer result, ¬ RefusesManager world o project analyzer result c) →
        Beforehand world.disk o project c (run world arguments)) ∧
      ∀ analyzer result, RefusesManager world o project analyzer result c →
        Belated world o project analyzer result c (run world arguments) := by
  obtain ⟨project, prepared, ends⟩ := endsAfter_performed leaves failed
  have reports := reports_run read failed
  refine ⟨project, prepared, ?_⟩
  generalize (performed world o).2.transcript = events at ends reports
  cases ends with
  | settings unloaded =>
    refine ⟨fun _ => beforehand_of_reports .nothing reports, fun analyzer result refuses => ?_⟩
    obtain ⟨settings, loaded, -⟩ := refuses.refused
    cases unloaded.symm.trans loaded
  | analyzer loaded unmade announces =>
    refine ⟨fun _ => beforehand_of_reports announces reports, fun analyzer result refuses => ?_⟩
    obtain ⟨settings, loaded', made, -⟩ := refuses.refused
    cases loaded.symm.trans loaded'
    cases unmade.symm.trans made
  | manager refuses announces presents =>
    refine ⟨fun never => (never _ _ refuses).elim, fun analyzer result refuses' => ?_⟩
    obtain ⟨rfl, rfl⟩ := refuses.unique refuses'
    exact ⟨_, _, announces, presents, reports⟩

end

/-- With `src` to scan and no patterns, only the packages to leave out come from the settings. -/
theorem analyzerOf_eq_load [Platform] {view : View} {o : Options} {settings : Settings}
    {ignored : List Name} (src : o.directories = some "src") (all : o.exclude = [])
    (ignores : settings.ignore = .ok ignored) (excludes : settings.exclusions = .ok [])
    (project : Path) : analyzerOf view o settings project =
      Analyzer.load view project (ignored ++ o.ignore.map Name.ofString) ["src"] (.none project) := by
  have split : Settings.splitDirectories (some "src") = some ["src"] := by decide +kernel
  rw [analyzerOf, ignores, excludes, src, split, all]
  rfl

/-- A disk with a project that declares one package and has one source file. -/
def oneSourceDisk (source : String) (settings : DiskNode) : Disk :=
  ⟨[(["work", "app", "src", "a.js"], .file (.text source)),
    (["work", "app", "package.json"],
      .file (.text "\x7b\"dependencies\": \x7b\"b\": \"*\"\x7d\x7d")),
    (["work", "app", ".depcheck-lite.json"], settings)], ["work", "app"]⟩

/-- The analyzer of that project, of which `src` is scanned. -/
def oneSourceAnalyzer (declared : List Name) : Analyzer :=
  ⟨Scan.application, ["src"], .none Scan.application, declared⟩

attribute [local instance] Platform.standard

section

variable (source : String) (node : DiskNode)

theorem prepared_oneSourceDisk {o : Options} (here : o.positional = []) (unsaved : o.output = none)
    (unnamed : o.manager = none) : Prepared (oneSourceDisk source node) o Scan.application := by
  have path : projectPath o = .ofString "." := by rw [projectPath, here]; rfl
  refine ⟨?_, ?_, fun name named => ?_⟩
  · rw [path, hasNulOutput, unsaved]
    decide
  · rw [path]
    cbv
  · cases unnamed.symm.trans named

theorem locate_oneSourceDisk :
    (oneSourceDisk source node).locate Scan.application = .ok ["work", "app"] := by cbv

theorem scan_oneSourceDisk (declared : List Name) :
    (oneSourceAnalyzer declared).scan (oneSourceDisk source node).view =
      ⟨⟨[Scan.onlySource], []⟩, none⟩ :=
  Analyzer.scan_of_onlySource (locate_oneSourceDisk source node) rfl rfl rfl rfl declared

theorem analyze_oneSourceDisk (declared : List Name) :
    (oneSourceAnalyzer declared).analyze (oneSourceDisk source node).view =
      .ok ((oneSourceAnalyzer declared).conclude ⟨[Scan.onlySource], []⟩
        [Import.references (Content.toText (.text source))]) :=
  Analyzer.analyze_of_onlySource (locate_oneSourceDisk source node) rfl rfl rfl rfl declared

theorem analyzerOf_oneSourceDisk {o : Options} {settings : Settings} {ignored : List Name}
    (src : o.directories = some "src") (all : o.exclude = [])
    (ignores : settings.ignore = .ok ignored) (excludes : settings.exclusions = .ok []) :
    analyzerOf (oneSourceDisk source node).view o settings Scan.application =
      .ok (oneSourceAnalyzer ([Name.ofString "b"].filter
        (· ∉ ignored ++ o.ignore.map Name.ofString))) := by
  have declares : (Manifest.load (oneSourceDisk source node).view Scan.application).map
      Manifest.declared = .ok ["b"] := by
    rw [Manifest.load_of_lookAt (by decide) (by cbv)]
    decide +kernel
  obtain ⟨manifest, loaded, declared⟩ := Except.map_eq_ok_iff.mp declares
  rw [analyzerOf_eq_load src all ignores excludes, Analyzer.load, loaded]
  change Except.ok (Analyzer.mk _ _ _ (manifest.declared.filter _)) = _
  rw [← declared]
  rfl

variable {source node}

/-- Before removals are offered, the one source file is read and the document printed. -/
theorem does_survey_oneSourceDisk (interactive : Bool) {settings : Settings}
    (names : List String) {references : List String} {ignored : List Name} {result : Result}
    {statistics : Statistics}
    (loaded : Settings.load (oneSourceDisk source node) Scan.application = .ok settings)
    (ignores : settings.ignore = .ok ignored) (excludes : settings.exclusions = .ok [])
    (refers : Import.references (Content.toText (.text source)) = references)
    (concludes : (oneSourceAnalyzer ([Name.ofString "b"].filter
      (· ∉ ignored ++ names.map Name.ofString))).conclude
      ⟨[Scan.onlySource], []⟩ [references] = (result, statistics)) :
    Does (survey (oneSourceDisk source node) { Options.empty with
        json := true, directories := some "src", interactive := interactive, ignore := names }
      Scan.application)
      [.opened Scan.onlySource, .printed .output (Report.document result ++ "\n")]
      (.ok ⟨settings, oneSourceDisk source node, result⟩) := by
  have made : analyzerOf (oneSourceDisk source node).view { Options.empty with
        json := true, directories := some "src", interactive := interactive, ignore := names }
      settings Scan.application = .ok (oneSourceAnalyzer ([Name.ofString "b"].filter
        (· ∉ ignored ++ names.map Name.ofString))) :=
    analyzerOf_oneSourceDisk source node rfl rfl ignores excludes
  have analyzed := analyze_oneSourceDisk source node
    ([Name.ofString "b"].filter (· ∉ ignored ++ names.map Name.ofString))
  rw [refers, concludes] at analyzed
  have does := does_survey_of_analyzed rfl rfl rfl loaded made analyzed
  rwa [scan_oneSourceDisk] at does

/-- An audit of the one source file reads it, prints the document and offers removals. -/
theorem performed_oneSourceDisk (interactive : Bool) {settings : Settings}
    (names : List String) {references : List String} {ignored : List Name} {result : Result}
    {statistics : Statistics}
    (loaded : Settings.load (oneSourceDisk source node) Scan.application = .ok settings)
    (ignores : settings.ignore = .ok ignored) (excludes : settings.exclusions = .ok [])
    (refers : Import.references (Content.toText (.text source)) = references)
    (concludes : (oneSourceAnalyzer ([Name.ofString "b"].filter
      (· ∉ ignored ++ names.map Name.ofString))).conclude
      ⟨[Scan.onlySource], []⟩ [references] = (result, statistics)) :
    let world : World := ⟨oneSourceDisk source node, "", .recorder 0⟩
    let o := { Options.empty with
      json := true, directories := some "src", interactive := interactive, ignore := names }
    performed world o =
      (offerRemoval world world.disk o settings Scan.application result.unused >>=
        fun left => pure (if left = [] then 0 else 1)).run
        ⟨linesOf "", [.opened Scan.onlySource,
          .printed .output (Report.document result ++ "\n")]⟩ := by
  intro world o
  have prepared : Prepared world.disk o Scan.application :=
    prepared_oneSourceDisk source node rfl rfl rfl
  have one : o.positional.length ≤ 1 := Nat.zero_le 1
  rw [performed_of_prepared rfl one prepared, audit_eq_survey, run_bind,
    does_survey_oneSourceDisk interactive names loaded ignores excludes refers concludes]
  rfl

end

/-- Settings that are no object are found to be none beforehand. -/
theorem configuration_beforehand_of_list :
    let world : World := ⟨settingsDisk (.text "[]"), "", .recorder 0⟩
    let c : Configuration := .notAnObject (Settings.pathIn Scan.application)
    LeavesConfiguration world.runner ∧ Options.read? [] = some Options.empty ∧
      (performed world Options.empty).1 = .error (.failed (.configuration c)) ∧
      Beforehand world.disk Options.empty Scan.application c (run world []) := by
  intro world c
  have leaves : LeavesConfiguration world.runner := leavesConfiguration_recorder 0
  have read : Options.read? [] = some Options.empty := rfl
  have failed : Settings.load world.disk Scan.application = .error (.configuration c) := by
    rw [load_settingsDisk]
    rfl
  have ran := performed_of_unloaded (o := Options.empty) rfl (Nat.zero_le 1)
    (prepared_settingsDisk _) failed
  obtain ⟨project, prepared, early, -⟩ :=
    configuration_beforehand world leaves read (congrArg Prod.fst ran)
  cases prepared.resolved.symm.trans (prepared_settingsDisk _).resolved
  refine ⟨leaves, read, congrArg Prod.fst ran, early fun analyzer result refuses => ?_⟩
  obtain ⟨settings, loaded, -⟩ := refuses.refused
  cases failed.symm.trans loaded

/-- The package manager of the settings is not known, and nobody finds out before the source file has
been read and the document printed. -/
theorem not_beforehand_of_unknownManager :
    let world : World :=
      ⟨oneSourceDisk "" (.file (.text "\x7b\"packageManager\": \"bun\"\x7d")), "", .recorder 0⟩
    let arguments := ["--json", "--dirs", "src", "--interactive"]
    let c : Configuration := .unknownManager "'bun'"
    ∃ o, Options.read? arguments = some o ∧
      (performed world o).1 = .error (.failed (.configuration c)) ∧
      .opened Scan.onlySource ∈ (run world arguments).transcript ∧
      (run world arguments).printed .output = Report.document ⟨[], ["b"], 1⟩ ++ "\n" ∧
      ∀ project, ¬ Beforehand world.disk o project c (run world arguments) := by
  intro world arguments c
  let node : DiskNode := .file (.text "\x7b\"packageManager\": \"bun\"\x7d")
  let o : Options :=
    { Options.empty with json := true, directories := some "src", interactive := true }
  have read : Options.read? arguments = some o := by decide
  have loaded : Settings.load world.disk Scan.application =
      .ok ⟨[("packageManager", .text "bun")]⟩ := by
    have stands : world.disk.lookAt (Settings.pathIn Scan.application) = .ok (some node) := by cbv
    rw [Settings.load_of_lookAt (by decide) stands]
    rfl
  have unreferred : Import.references (Content.toText (.text "")) = [] := by decide +kernel
  have unused : (oneSourceAnalyzer ([Name.ofString "b"].filter (· ∉ [] ++ []))).conclude
      ⟨[Scan.onlySource], []⟩ [[]] = (⟨[], ["b"], 1⟩, ⟨1, 0, []⟩) := by decide +kernel
  have refused : managerOf world.disk o ⟨[("packageManager", .text "bun")]⟩ Scan.application =
      .error (.configuration c) := by decide +kernel
  let done : List Event :=
    [.opened Scan.onlySource, .printed .output (Report.document ⟨[], ["b"], 1⟩ ++ "\n")]
  have offers : performed world o =
      (offerRemoval world world.disk o ⟨[("packageManager", .text "bun")]⟩ Scan.application ["b"] >>=
        fun left => pure (if left = [] then 0 else 1)).run ⟨linesOf "", done⟩ :=
    performed_oneSourceDisk true [] loaded rfl rfl unreferred unused
  have ran : performed world o = (.error (.failed (.configuration c)), ⟨linesOf "", done⟩) := by
    rw [offers, offerRemoval, if_pos ⟨rfl, List.cons_ne_nil _ _⟩, refused]
    rfl
  have failed := congrArg Prod.fst ran
  have reports := reports_run read failed
  rw [ran] at reports
  generalize run world arguments = outcome at reports
  have opened : .opened Scan.onlySource ∈ outcome.transcript := by
    cases reports <;> simp [done]
  refine ⟨o, read, failed, opened, ?_, fun project beforehand => beforehand.opened _ opened⟩
  cases reports <;> simp [done, Outcome.printed, String.join]

end DependencyAudit.CommandLine

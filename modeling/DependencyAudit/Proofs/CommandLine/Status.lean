import DependencyAudit.Proofs.CommandLine.Removals
import DependencyAudit.Proofs.Settings

namespace DependencyAudit.CommandLine

open Conversation FileSystem Removal

section

variable [Platform] {world : World} {o : Options} {project : Path}

section

variable {allowed : Event → Prop} {stops : Ending → Prop}
  (failed : ∀ failure, stops (.failed failure))
include failed

omit [Platform] in
theorem stays_save {disk : Disk} {result : Result}
    (wrote : ∀ path text, allowed (.wrote path text)) :
    Stays allowed stops (save disk o result) := by
  unfold save
  split
  · exact .of_pure _
  · refine (Stays.of_ofExcept failed _ _).bind fun _ => ?_
    exact (Stays.of_note rfl (wrote _ _)).bind fun _ => .of_pure _

theorem stays_present {result : Result} {statistics : Statistics}
    (printed : ∀ text, allowed (.printed .output text)) :
    Stays allowed stops (present o result statistics) := by
  unfold present
  split
  · exact .of_note rfl (printed _)
  have lists : Stays allowed stops ((Report.listing result).forM (tell (console .output))) :=
    .of_forM (Stays.of_tell failed printed) _
  dsimp only
  split
  on_goal 1 =>
    refine (Stays.of_ofExcept failed _ _).bind fun _ => ?_
    refine (Stays.of_note rfl (printed _)).bind fun _ => ?_
  all_goals
    refine lists.bind fun _ => ?_
    split
    · exact .of_pure _
    · exact Stays.of_say failed printed _

/-- Where removals are offered, the status console is printed on, lines are read and programs are
run. -/
theorem stays_offerRemoval {disk : Disk} {settings : Settings} {unused : List Name}
    (printed : ∀ text, allowed (.printed (statusConsole o).stream text))
    (answered : ∀ line, allowed (.answered line))
    (called : ∀ command directory, allowed (.called command directory)) (aborted : stops .aborted) :
    Stays allowed stops (offerRemoval world disk o settings project unused) := by
  unfold offerRemoval
  split
  · refine (Stays.of_ofExcept failed _ _).bind fun manager => ?_
    exact (stays_dialogue failed printed answered called aborted).bind fun _ => .of_pure _
  · exact .of_pure _

end

/-- The conversation does not end the program with a status other than 1. -/
def AtMostOne : Ending → Prop
  | .finished status => status = 1
  | _ => True

/-- Any event. -/
def AnyEvent (_ : Event) : Prop := True

theorem stays_audit : Stays AnyEvent AtMostOne (audit world o project) := by
  have failed : ∀ failure, AtMostOne (.failed failure) := fun _ => trivial
  have printed : ∀ stream text, AnyEvent (.printed stream text) := fun _ _ => trivial
  unfold audit
  refine (Stays.of_ofExcept failed _ _).bind fun settings => ?_
  dsimp only
  refine Stays.after_ite (Stays.of_say failed (printed _) _) ?_
  refine (Stays.of_ofExcept failed _ _).bind fun analyzer => ?_
  refine (Stays.of_forM_note (fun _ => rfl) (fun _ => trivial) _).bind fun _ => ?_
  refine (Stays.of_ofExcept failed _ _).bind fun answer => ?_
  refine (stays_save failed fun _ _ => trivial).bind fun disk => ?_
  refine (stays_present failed (printed _)).bind fun _ => ?_
  refine Stays.bind ?_ fun left => .of_pure _
  exact stays_offerRemoval failed (printed _) (fun _ => trivial) (fun _ _ => trivial) trivial

theorem stays_prepare (one : o.positional.length ≤ 1) :
    Stays AnyEvent AtMostOne (prepare world o) := by
  refine (preparesTo_prepare world o).mono fun events ending prepares => ⟨fun _ _ => trivial, ?_⟩
  rintro stop rfl
  cases prepares with
  | nulCharacter _ | linkLoop _ => exact trivial
  | tooMany more => exact absurd more (Nat.not_lt.mpr one)
  | unknownManager _ _ _ => exact rfl

/-- What an offer of removals leaves of the unused packages: all of them, where nothing is run, or
those that have not been removed by a program that has ended with the status 0. -/
def Leaves (world : World) (o : Options) (project : Path) (unused : List Name)
    (calls : List Call) (left : List Name) : Prop :=
  calls = [] ∧ left = unused ∨
    o.interactive ∧ ∃ manager removed call, calls = [call] ∧
      world.runner (Manager.removalCommand manager removed) project = .ok (call, 0) ∧
      left = unused.filter (· ∉ removed)

theorem returns_offerRemoval {disk : Disk} {settings : Settings} {unused : List Name} :
    Returns (offerRemoval world disk o settings project unused)
      (Leaves world o project unused) := by
  unfold offerRemoval
  split
  next asked =>
    refine .after_ofExcept fun manager _ => ?_
    refine returns_dialogue.bind fun calls outcome removed => .of_pure ?_
    rw [List.append_nil]
    rcases removed with ⟨quiet, nothing⟩ | ⟨call, once, ran⟩
    · exact .inl ⟨quiet, by simp [nothing]⟩
    · exact .inr ⟨asked.1, manager, outcome.removed, call, once, ran, rfl⟩
  next => exact .of_pure (.inl ⟨rfl, rfl⟩)

/-- Where an audit goes through, its status tells whether there are unused packages left. -/
def Audits (world : World) (o : Options) (project : Path) (calls : List Call) (status : Nat) :
    Prop :=
  ∃ settings analyzer result statistics left,
    Settings.load world.disk project = .ok settings ∧
    analyzerOf world.disk.view o settings project = .ok analyzer ∧
    analyzer.analyze world.disk.view = .ok (result, statistics) ∧
    Leaves world o project result.unused calls left ∧ status = if left = [] then 0 else 1

theorem returns_audit : Returns (audit world o project) (Audits world o project) := by
  have failed : ∀ failure, AnyEnding (.failed failure) := fun _ => trivial
  have printed : ∀ stream text, ¬ IsCall (.printed stream text) := fun _ _ => id
  unfold audit
  refine .after_ofExcept fun settings loaded => ?_
  dsimp only
  refine .after_ite (Stays.of_say failed (printed _) _) ?_
  refine .after_ofExcept fun analyzer made => ?_
  have opens : ∀ paths : List Path, Stays (¬ IsCall ·) AnyEnding (paths.forM (note <| .opened ·)) :=
    fun paths => .of_forM_note (fun _ => rfl) (fun _ => id) paths
  refine .after (opens _) fun _ => ?_
  refine .after_ofExcept fun answer analyzed => ?_
  obtain ⟨result, statistics⟩ := answer
  refine .after (stays_save failed fun _ _ => id) fun disk => ?_
  refine .after (stays_present failed (printed _)) fun _ => ?_
  refine returns_offerRemoval.bind fun calls left leaves => .of_pure ?_
  rw [List.append_nil]
  exact ⟨settings, analyzer, result, statistics, left, loaded, made, analyzed, leaves, rfl⟩

omit [Platform] in
theorem request?_eq_none_iff : o.request? = none ↔ o.requests = [] := by
  rw [Options.request?, Option.or_eq_none_iff, List.head?_eq_none_iff, and_iff_right_iff_imp]
  rintro empty
  rw [empty]
  rfl

theorem perform_of_noRequest (world : World) (noRequest : o.requests = []) :
    perform world o = prepare world o >>= audit world o := by
  have unasked : o.request? = none := request?_eq_none_iff.mpr noRequest
  rw [perform, unasked]

theorem returns_perform (world : World) (noRequest : o.requests = []) :
    Returns (perform world o) fun calls status => ∃ project,
      world.disk.realPath (projectPath o) = .ok project ∧ Audits world o project calls status := by
  rw [perform_of_noRequest world noRequest]
  refine Meets.bind meets_prepare (fun _ _ _ _ same => by cases same) fun events project holds => ?_
  obtain ⟨quiet, resolved⟩ := holds
  refine Meets.mono returns_audit fun more ending audits status same => ?_
  rw [callsIn_append, quiet.calls, List.nil_append]
  exact ⟨project, resolved project rfl, audits status same⟩

theorem stays_perform (noRequest : o.requests = []) (one : o.positional.length ≤ 1) :
    Stays AnyEvent AtMostOne (perform world o) := by
  rw [perform_of_noRequest world noRequest]
  exact (stays_prepare one).bind fun _ => stays_audit

/-- The run goes through: nothing fails in it, and the input does not end at a question. -/
def Finishes (world : World) (o : Options) : Prop :=
  ∃ status, ((perform world o).run ⟨linesOf world.input, []⟩).1 = .ok status

/-- Each package that the project declares and does not ignore is referred to by a scanned file, or it
is one of those that the one program has removed that was run, which has ended with the status 0. -/
def Accounted (disk : Disk) (o : Options) (code : Int) (calls : List Call) : Prop :=
  ∃ project settings ignored analyzer, disk.realPath (projectPath o) = .ok project ∧
    Settings.load disk project = .ok settings ∧ settings.ignore = .ok ignored ∧
    analyzerOf disk.view o settings project = .ok analyzer ∧
    ∀ name, Declares disk.view project name → name ∉ ignored ++ o.ignore.map Name.ofString →
      (∃ path ∈ (analyzer.scan disk.view).found.files, RefersAt disk.view path name) ∨
        code = 0 ∧ ∃ manager packages,
          calls = [⟨Manager.removalCommand manager packages, project⟩] ∧ name ∈ packages

theorem mem_unused_iff {view : View} {settings : Settings} {ignored : List Name}
    {analyzer : Analyzer} {result : Result} {statistics : Statistics}
    (ignores : settings.ignore = .ok ignored)
    (made : analyzerOf view o settings project = .ok analyzer)
    (analyzed : analyzer.analyze view = .ok (result, statistics)) {name : Name} :
    name ∈ result.unused ↔
      (Declares view project name ∧ name ∉ ignored ++ o.ignore.map Name.ofString) ∧
      ¬ ∃ path ∈ (analyzer.scan view).found.files, RefersAt view path name := by
  obtain ⟨_, directories, excluder, ignores', load⟩ := exists_load_of_analyzerOf made
  cases ignores.symm.trans ignores'
  rw [(Analyzer.reconciles_of_analyze analyzed).mem_unused, Analyzer.mem_declared_of_load load]

section

variable {disk : Disk} {input : String} {code : Int} {calls : List Call} {status : Nat}

theorem accounted_of_audits (resolved : disk.realPath (projectPath o) = .ok project)
    (audits : Audits ⟨disk, input, .recorder code⟩ o project calls status) (zero : status = 0) :
    Accounted disk o code calls := by
  obtain ⟨settings, analyzer, result, statistics, left, loaded, made, analyzed, leaves, rfl⟩ := audits
  obtain ⟨ignored, _, _, ignores, _⟩ := exists_load_of_analyzerOf made
  have empty : left = [] := by
    by_contra nonempty
    rw [if_neg nonempty] at zero
    cases zero
  refine ⟨project, settings, ignored, analyzer, resolved, loaded, ignores, made, ?_⟩
  intro name declares kept
  by_cases refers : ∃ path ∈ (analyzer.scan disk.view).found.files, RefersAt disk.view path name
  · exact .inl refers
  have unused := (mem_unused_iff ignores made analyzed).mpr ⟨⟨declares, kept⟩, refers⟩
  rcases leaves with ⟨-, all⟩ | ⟨-, manager, removed, call, once, ran, all⟩
  · rw [← all, empty] at unused
    cases unused
  · cases ran
    refine .inr ⟨rfl, manager, removed, once, ?_⟩
    have gone := List.filter_eq_nil_iff.mp (all.symm.trans empty) name unused
    simpa using gone

theorem audits_of_accounted (resolved : disk.realPath (projectPath o) = .ok project)
    (audits : Audits ⟨disk, input, .recorder code⟩ o project calls status)
    (accounted : Accounted disk o code calls) : status = 0 := by
  obtain ⟨settings, analyzer, result, statistics, left, loaded, made, analyzed, leaves, rfl⟩ := audits
  obtain ⟨_, _, ignored, _, resolved', loaded', ignores, made', all⟩ := accounted
  cases resolved.symm.trans resolved'
  cases loaded.symm.trans loaded'
  cases made.symm.trans made'
  refine if_pos (List.eq_nil_iff_forall_not_mem.mpr fun name inLeft => ?_)
  have inUnused : name ∈ result.unused := by
    rcases leaves with ⟨-, rfl⟩ | ⟨-, _, _, _, -, -, rfl⟩
    · exact inLeft
    · exact (List.mem_filter.mp inLeft).1
  obtain ⟨⟨declares, kept⟩, nowhere⟩ := (mem_unused_iff ignores made analyzed).mp inUnused
  rcases all name declares kept with refers | ⟨-, manager, packages, once, inPackages⟩
  · exact nowhere refers
  · rcases leaves with ⟨quiet, -⟩ | ⟨-, manager', removed, call, once', ran, rfl⟩
    · rw [quiet] at once
      cases once
    · cases ran
      have same := congrArg Call.command (List.singleton_inj.mp (once.symm.trans once'))
      rw [Manager.packages_eq_of_removalCommand same] at inPackages
      simp [inPackages] at inLeft

end

theorem returns_report (failure : Failure) : Returns (report failure) fun _ status => status = 1 :=
  .after_say (.of_pure rfl)

theorem stays_report (failure : Failure) : Stays AnyEvent AtMostOne (report failure) :=
  (Stays.of_say (fun _ => trivial) (fun _ => trivial) _).bind fun _ => .of_pure 1

omit [Platform] in
theorem status_conclude {ending : Except Ending Nat} {desk : Desk}
    (fine : ∀ status, ending = .ok status → status = 1)
    (stopped : ∀ stop, ending = .error stop → AtMostOne stop) :
    (conclude ending desk).status = 1 := by
  unfold conclude
  split
  · exact fine _ rfl
  · exact stopped _ rfl
  · rfl
  · rfl

variable {arguments : List String}

/-- A run that goes through has the status that it comes to. -/
theorem run_of_ok (world : World) (read : Options.read? arguments = some o) {status : Nat}
    {desk : Desk} (ran : (perform world o).run ⟨linesOf world.input, []⟩ = (.ok status, desk)) :
    run world arguments = ⟨status, desk.transcript, none⟩ := by
  rw [run_eq_conclude read, performReporting, run_tryCatch_of_ok ran]
  rfl

/-- A run whose conversation ends early goes on with what answers that end. -/
theorem run_of_error (world : World) (read : Options.read? arguments = some o) {stop : Ending}
    {desk : Desk} (ran : (perform world o).run ⟨linesOf world.input, []⟩ = (.error stop, desk))
    {handle : Ending → Conversation Nat}
    (handles : performReporting world o = tryCatch (perform world o) handle) :
    run world arguments = conclude ((handle stop).run desk).1 ((handle stop).run desk).2 := by
  rw [run_eq_conclude read, handles, run_tryCatch_of_error ran]

/-- A run that does not go through has the status 1. -/
theorem status_run_of_error (world : World) (read : Options.read? arguments = some o)
    {stop : Ending} {desk : Desk}
    (ran : (perform world o).run ⟨linesOf world.input, []⟩ = (.error stop, desk))
    (stopped : AtMostOne stop) : (run world arguments).status = 1 := by
  rw [run_of_error world read ran rfl]
  cases stop with
  | aborted => rfl
  | finished status => exact stopped
  | failed failure =>
    dsimp only
    split
    · obtain ⟨_, -, -, returns⟩ := returns_report failure desk
      obtain ⟨_, -, -, -, stays⟩ := stays_report failure desk
      exact status_conclude returns stays
    · rfl

/-- What the status of a run tells. -/
structure Gates (disk : Disk) (input : String) (code : Int) (o : Options) (outcome : Outcome) :
    Prop where
  status_eq : outcome.status = 0 ∨ outcome.status = 1
  status_eq_zero_iff : outcome.status = 0 ↔
    Finishes ⟨disk, input, .recorder code⟩ o ∧ Accounted disk o code outcome.calls
  /-- With packages that are in no use, the status is 0 only after all of them have been picked, the
  removal has been confirmed, and the program has ended with the status 0. -/
  removed : outcome.status = 0 → ∀ project, disk.realPath (projectPath o) = .ok project →
    (∃ package, Dispensable disk o project package) →
      code = 0 ∧ ∃ manager packages before after,
        outcome.calls = [⟨Manager.removalCommand manager packages, project⟩] ∧
        outcome.transcript =
          before ++ .called (manager.removalCommand packages) project :: after ∧
        (∀ package, Dispensable disk o project package → package ∈ packages) ∧
        Justified disk input o project packages before

/-- Where there are packages in no use and all are accounted for, they have been removed in one call,
for which there was every reason. -/
theorem removed_of_accounted {disk : Disk} {input : String} {code : Int}
    (read : Options.read? arguments = some o)
    (accounted : Accounted disk o code (run ⟨disk, input, .recorder code⟩ arguments).calls)
    (project : Path) (resolved : disk.realPath (projectPath o) = .ok project)
    (left : ∃ package, Dispensable disk o project package) :
    code = 0 ∧ ∃ manager packages before after,
      (run ⟨disk, input, .recorder code⟩ arguments).calls =
        [⟨Manager.removalCommand manager packages, project⟩] ∧
      (run ⟨disk, input, .recorder code⟩ arguments).transcript =
        before ++ .called (manager.removalCommand packages) project :: after ∧
      (∀ package, Dispensable disk o project package → package ∈ packages) ∧
      Justified disk input o project packages before := by
  obtain ⟨_, settings, ignored, analyzer, resolved', loaded, ignores, made, all⟩ := accounted
  cases resolved.symm.trans resolved'
  have gone : ∀ package, Dispensable disk o project package → code = 0 ∧ ∃ manager packages,
      (run ⟨disk, input, .recorder code⟩ arguments).calls =
        [⟨Manager.removalCommand manager packages, project⟩] ∧ package ∈ packages := by
    intro package dispensable
    obtain ⟨settings', ignored', analyzer', loaded', ignores', made', declares, kept, nowhere⟩ :=
      dispensable
    cases loaded.symm.trans loaded'
    cases ignores.symm.trans ignores'
    cases made.symm.trans made'
    refine (all package declares kept).resolve_left fun holds => ?_
    obtain ⟨path, scanned, text, reads, reference, refers, named⟩ := holds
    obtain ⟨text', reads', absent⟩ := nowhere path scanned
    cases reads.symm.trans reads'
    exact absent reference refers named
  obtain ⟨package, dispensable⟩ := left
  obtain ⟨zero, manager, packages, once, -⟩ := gone package dispensable
  refine ⟨zero, manager, packages, ?_⟩
  rcases calls_run ⟨disk, input, .recorder code⟩ arguments with noCalls | ⟨o', project',
    manager', packages', before, call, _, after, read', transcript, calls, ran, justified⟩
  · rw [noCalls] at once
    cases once
  · cases ran
    cases read.symm.trans read'
    have same := List.singleton_inj.mp (calls.symm.trans once)
    obtain ⟨command, directory⟩ := Call.mk.inj same
    have samePackages := Manager.packages_eq_of_removalCommand command
    subst directory samePackages
    refine ⟨before, after, once, by rw [transcript, command], ?_, justified⟩
    intro other dispensable'
    obtain ⟨-, _, others, once', inOthers⟩ := gone other dispensable'
    have sameCommand := congrArg Call.command (List.singleton_inj.mp (once.symm.trans once'))
    rwa [Manager.packages_eq_of_removalCommand sameCommand]

/-- The status of a run is 0 exactly where it goes through and all packages are accounted for. -/
theorem status_gates (disk : Disk) (input : String) (code : Int) {arguments : List String}
    {o : Options} (read : Options.read? arguments = some o) (noRequest : o.requests = [])
    (one : o.positional.length ≤ 1) :
    Gates disk input code o (run ⟨disk, input, .recorder code⟩ arguments) := by
  let world : World := ⟨disk, input, .recorder code⟩
  cases ran : (perform world o).run ⟨linesOf input, []⟩ with
  | mk ending desk =>
    have performs : Stays AnyEvent AtMostOne (perform world o) := stays_perform noRequest one
    obtain ⟨_, -, -, -, stays⟩ := performs ⟨linesOf input, []⟩
    obtain ⟨events, grown, -, returns⟩ := returns_perform world noRequest ⟨linesOf input, []⟩
    rw [ran] at stays grown returns
    cases ending with
    | error stop =>
      have failed := status_run_of_error world read ran (stays stop rfl)
      refine ⟨.inr failed, ?_, fun zero => by rw [failed] at zero; cases zero⟩
      rw [failed]
      refine ⟨fun zero => (by cases zero), fun holds => ?_⟩
      obtain ⟨⟨status, finished⟩, -⟩ := holds
      rw [show (perform ⟨disk, input, .recorder code⟩ o).run ⟨linesOf input, []⟩ = _ from ran]
        at finished
      cases finished
    | ok status =>
      obtain ⟨project, resolved, audits⟩ := returns status rfl
      have outcome := run_of_ok world read ran
      have calls : (run world arguments).calls = callsIn events := by
        rw [outcome]
        change callsIn desk.transcript = _
        rw [grown, List.nil_append]
      change Gates disk input code o (run world arguments)
      have accounted : (run world arguments).status = 0 →
          Accounted disk o code (run world arguments).calls := by
        rw [calls, outcome]
        exact accounted_of_audits resolved audits
      refine ⟨?_, ?_, fun zero => ?_⟩
      · obtain ⟨_, _, _, _, left, -, -, -, -, same⟩ := audits
        rw [outcome, same]
        dsimp only
        split
        · exact .inl rfl
        · exact .inr rfl
      · refine ⟨fun zero => ⟨⟨status, congrArg Prod.fst ran⟩, accounted zero⟩, fun holds => ?_⟩
        rw [calls] at holds
        rw [outcome]
        exact audits_of_accounted resolved audits holds.2
      · exact removed_of_accounted read (accounted zero)

/-- A run with a request does nothing but meet it. -/
theorem run_of_request (world : World) {request : Request} (read : Options.read? arguments = some o)
    (asked : o.request? = some request) : ∃ ending desk,
      AnswersTo o request desk.transcript ending ∧ run world arguments = conclude ending desk := by
  have answers : perform world o = answer o request := by rw [perform, asked]
  obtain ⟨events, grown, -, holds⟩ := answersTo_answer o request ⟨linesOf world.input, []⟩
  generalize ran : (answer o request).run ⟨linesOf world.input, []⟩ = ended at grown holds
  obtain ⟨ending, left, transcript⟩ := ended
  cases grown
  rw [← answers] at ran
  refine ⟨ending, ⟨left, _⟩, holds, ?_⟩
  cases ending with
  | ok status => exact run_of_ok world read ran
  | error stop =>
    rw [run_of_error world read ran rfl]
    cases holds
    rfl

/-- A run that tells its version or its help has the status 0 and runs nothing. -/
theorem run_of_eager (world : World) {request : Request} (read : Options.read? arguments = some o)
    (asked : o.request? = some request) (eager : request.isEager) :
    (run world arguments).status = 0 ∧ (run world arguments).calls = [] := by
  obtain ⟨ending, desk, answers, ran⟩ := run_of_request world read asked
  rw [ran]
  obtain ⟨left, transcript⟩ := desk
  cases answers with
  | version _ | help => exact ⟨rfl, rfl⟩
  | completion _ | nulCharacter _ => cases eager

end

attribute [local instance] Platform.standard

/-- A disk with one declared package and no sources. -/
def unusedDisk : Disk := manifestDisk "\x7b\"dependencies\": \x7b\"a\": \"*\"\x7d\x7d"

/-- An input that removes the package. -/
theorem status_gates_of_interactive :
    let o : Options := { Options.empty with interactive := true }
    Options.read? ["--interactive"] = some o ∧ o.requests = [] ∧ o.positional.length ≤ 1 ∧
      Gates unusedDisk "all\nyes\n" 0 o
        (run ⟨unusedDisk, "all\nyes\n", .recorder 0⟩ ["--interactive"]) := by
  intro o
  have read : Options.read? ["--interactive"] = some o := by decide +kernel
  exact ⟨read, rfl, Nat.zero_le 1, status_gates unusedDisk "all\nyes\n" 0 read rfl (Nat.zero_le 1)⟩

theorem declares_unusedDisk : Declares unusedDisk.view Scan.application "a" := by
  have loaded : Analyzer.load unusedDisk.view Scan.application [] [] (.none Scan.application) =
      .ok ⟨Scan.application, [], .none Scan.application, ["a"]⟩ := by
    refine Analyzer.load_eq_ok_of_filtered ?_
    rw [unusedDisk, load_manifestDisk]
    decide +kernel
  exact ((Analyzer.mem_declared_of_load loaded).mp (List.mem_singleton_self _)).1

/-- The only text on the disk names no module. -/
theorem not_refersAt_unusedDisk (path : Path) (name : Name) :
    ¬ RefersAt unusedDisk.view path name := by
  rintro ⟨text, read, reference, refers, -⟩
  obtain ⟨content, given, rfl⟩ := Except.map_eq_ok_iff.mp read
  have nothing : ∀ text ∈ ["", "\x7b\"dependencies\": \x7b\"a\": \"*\"\x7d\x7d"],
      Import.references (Content.toText (.text text)) = [] := by decide +kernel
  rcases Disk.exists_mem_of_content given with rfl | ⟨place, member⟩
  · exact absurd refers (by simp [nothing])
  · cases List.mem_singleton.mp member
    exact absurd refers (by simp [nothing])

theorem not_accounted_unusedDisk {o : Options} (noPath : o.positional = []) (noIgnore : o.ignore = []) :
    ¬ Accounted unusedDisk o 0 [] := by
  rintro ⟨project, settings, ignored, analyzer, resolved, loaded, ignores, -, all⟩
  have here : unusedDisk.realPath (projectPath o) = .ok Scan.application := by
    rw [projectPath, noPath]
    cbv
  cases here.symm.trans resolved
  cases (Settings.load_manifestDisk _).symm.trans loaded
  cases ignores
  rcases all "a" declares_unusedDisk (by simp [noIgnore]) with ⟨path, -, refers⟩ | ⟨-, _, _, once, -⟩
  · exact not_refersAt_unusedDisk path _ refers
  · cases once

/-- A run with these arguments has the status 0, and nobody has removed the package that is not in
use. -/
def LeavesUnused (arguments : List String) : Prop :=
  ∃ o, Options.read? arguments = some o ∧ o.positional.length ≤ 1 ∧
    (run ⟨unusedDisk, "", .recorder 0⟩ arguments).status = 0 ∧
    ¬ Accounted unusedDisk o 0 (run ⟨unusedDisk, "", .recorder 0⟩ arguments).calls

theorem leavesUnused_of_eager {arguments : List String} {o : Options} {request : Request}
    (read : Options.read? arguments = some o) (asked : o.request? = some request)
    (eager : request.isEager) (noPath : o.positional = []) (noIgnore : o.ignore = []) :
    LeavesUnused arguments := by
  obtain ⟨zero, quiet⟩ := run_of_eager ⟨unusedDisk, "", .recorder 0⟩ read asked eager
  refine ⟨o, read, by simp [noPath], zero, ?_⟩
  rw [quiet]
  exact not_accounted_unusedDisk noPath noIgnore

/-- Runs that tell their help or their version look at no package. -/
theorem not_gates_of_request : LeavesUnused ["--help"] ∧ LeavesUnused ["-V"] := by
  constructor
  · have read : Options.read? ["--help"] = some { Options.empty with requests := [.help] } := by
      decide
    exact leavesUnused_of_eager read rfl rfl rfl rfl
  · have read : Options.read? ["-V"] = some { Options.empty with requests := [.version] } := by
      decide
    exact leavesUnused_of_eager read rfl rfl rfl rfl

end DependencyAudit.CommandLine

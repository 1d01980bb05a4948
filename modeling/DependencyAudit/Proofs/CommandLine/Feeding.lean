import DependencyAudit.Proofs.CommandLine.Configuration
import DependencyAudit.Proofs.Removal.Feeding
import DependencyAudit.Proofs.Text.Utf8

namespace DependencyAudit.CommandLine

open Conversation FileSystem Removal

/-- The run is to offer removals: an audit comes to findings with unused packages, and this is the
manager to remove them. -/
structure Offers [Platform] (disk : Disk) (o : Options) (project : Path) (manager : Manager)
    (findings : Findings) (statistics : Statistics) : Prop where
  noRequest : o.requests = []
  one : o.positional.length ≤ 1
  prepared : Prepared disk o project
  interactive : o.interactive
  finds : Finds disk o project findings statistics
  nonempty : findings.result.unused ≠ []
  managed : managerOf findings.disk o findings.settings project = .ok manager

/-- The status of a run whose dialogue has come to an outcome. -/
def statusAfter (unused : List Name) (outcome : Removal.Outcome) : Nat :=
  if unused.filter (· ∉ outcome.removed) = [] then 0 else 1

/-- A run and a session that agree: they make the same calls, and the end of the run follows from that
of the session, which has read the same text. -/
structure Agrees [Platform] (world : World) (arguments : List String) (o : Options)
    (unused : List Name) (session : Except Ending Removal.Outcome × Desk) : Prop where
  calls : (run world arguments).calls = callsIn session.2.transcript
  ending : Follows (Undecided unused.length (Removal.linesOf world.input)) (statusAfter unused)
    session.1 (performed world o).1
  /-- Unless something fails, that end is how the run is seen to end. -/
  shown : (∀ failure, (performed world o).1 ≠ .error (.failed failure)) →
    run world arguments = conclude (performed world o).1 (performed world o).2

/-- The console of a run, read with line ends. -/
def sessionConsole (o : Options) : Console := { statusConsole o with reading := .wholeLines }

/-- A run agrees with a session if it can tell all that it tells before the dialogue. If it cannot, it
ends there, and has read no line and run no program. -/
structure Feeds [Platform] (world : World) (arguments : List String) (o : Options)
    (manager : Manager) (unused : List Name) (tellable : Prop)
    (session : Console → Except Ending Removal.Outcome × Desk) : Prop where
  agrees : tellable → Agrees world arguments o unused (session (sessionConsole o))
  /-- It does not matter where the session prints if all that is printed is harmless. -/
  elsewhere : tellable → ∀ console status, console.reading = .wholeLines →
    world.runner = .recorder status →
    Plain console.stream manager unused (Removal.linesOf world.input) →
    Plain (statusConsole o).stream manager unused (Removal.linesOf world.input) →
      Agrees world arguments o unused (session console)
  silent : ¬ tellable → ∃ events failure,
    run world arguments = ⟨1, events, some failure⟩ ∧ IsUntold failure ∧ Quiet events

section

variable [Platform] {world : World} {arguments : List String} {o : Options} {project : Path}
  {manager : Manager} {findings : Findings} {statistics : Statistics} {events : List Event}

theorem performed_eq_survey (offers : Offers world.disk o project manager findings statistics) :
    performed world o = (survey world.disk o project >>= fun findings => do
      let left ← offerRemoval world findings.disk o findings.settings project
        findings.result.unused
      return if left = [] then 0 else 1).run ⟨linesOf world.input, []⟩ := by
  rw [performed_of_prepared offers.noRequest offers.one offers.prepared, audit_eq_survey]

/-- A run that offers removals is, after what it has done, the dialogue. -/
theorem performed_of_offers (offers : Offers world.disk o project manager findings statistics)
    (surveyed : Does (survey world.disk o project) events (.ok findings)) :
    performed world o =
      (dialogue (statusConsole o) world.runner project manager findings.result.unused >>=
        fun outcome => pure (statusAfter findings.result.unused outcome)).run
        ⟨linesOf world.input, events⟩ := by
  have offered : offerRemoval world findings.disk o findings.settings project
      findings.result.unused = (do
        let outcome ← dialogue (statusConsole o) world.runner project manager findings.result.unused
        return findings.result.unused.filter (· ∉ outcome.removed)) := by
    unfold offerRemoval
    rw [if_pos ⟨offers.interactive, offers.nonempty⟩, offers.managed]
    rfl
  rw [performed_eq_survey offers, run_bind, surveyed]
  dsimp only
  rw [offered, bind_assoc]
  rfl

theorem quiet_of_surveyed {ending : Except Ending Findings}
    (surveyed : Does (survey world.disk o project) events ending) : Quiet events := by
  obtain ⟨more, grown, -, quiet⟩ := silent_survey world.disk o project ⟨[], []⟩
  rw [surveyed] at grown
  exact (show events = more from grown) ▸ quiet

omit [Platform] in
theorem calls_conclude_of_silent {c : Conversation Nat} (silent : Silent c) (desk : Desk) :
    (conclude (c.run desk).1 (c.run desk).2).calls = callsIn desk.transcript := by
  obtain ⟨events, grown, -, quiet⟩ := silent desk
  obtain ⟨more, quiet', same⟩ := transcript_conclude (c.run desk).1 (c.run desk).2
  refine (congrArg callsIn same).trans ?_
  rw [grown, callsIn_append, callsIn_append, quiet.calls, quiet'.calls, List.append_nil,
    List.append_nil]

/-- What is done after the end of what the options ask for runs no program. -/
theorem calls_run_eq (world : World) (read : Options.read? arguments = some o) :
    (run world arguments).calls = callsIn (performed world o).2.transcript := by
  cases ran : performed world o with
  | mk ending desk =>
    cases ending with
    | ok status =>
      rw [run_of_ok world read ran]
      rfl
    | error stop =>
      rw [run_of_error world read ran rfl]
      refine calls_conclude_of_silent ?_ desk
      split
      · split
        · exact silent_report _
        · exact silent_throw _
      · exact silent_throw _

omit [Platform] in
/-- Without carriage returns the lines of a run are those of a session without their line feeds. -/
theorem linesOf_eq {input : String} (noReturn : '\r' ∉ input.toList) :
    linesOf input = (Removal.linesOf input).map bare := by
  unfold linesOf Removal.linesOf Text.bareLines
  rw [Text.unifyLineEnds_eq_self noReturn, List.map_map, List.map_map]
  refine List.map_congr_left fun line _ => ?_
  rw [Function.comp_apply, Function.comp_apply, bare, String.toList_ofList]

theorem shown_of_performed (read : Options.read? arguments = some o)
    (fine : ∀ failure, (performed world o).1 ≠ .error (.failed failure)) :
    run world arguments = conclude (performed world o).1 (performed world o).2 := by
  cases ran : performed world o with
  | mk ending desk =>
    cases ending with
    | ok status => exact run_of_ok world read ran
    | error stop =>
      rw [run_of_error world read ran rfl]
      cases stop with
      | failed failure => exact absurd (congrArg Prod.fst ran) (fine failure)
      | aborted => rfl
      | finished status => rfl

/-- Fed with the same text, a run agrees with the session on its own console once it has told its
findings. -/
theorem agrees_of_tellable (read : Options.read? arguments = some o)
    (offers : Offers world.disk o project manager findings statistics)
    (tellable : Tellable world.disk o project findings statistics)
    (noReturn : '\r' ∉ world.input.toList) (filled : "" ∉ (linesOf world.input).tail) :
    Agrees world arguments o findings.result.unused
      ((dialogue (sessionConsole o) world.runner project manager findings.result.unused).run
        ⟨Removal.linesOf world.input, []⟩) := by
  obtain ⟨events, ending, surveyed, ⟨-, rfl⟩ | ⟨untold, -⟩⟩ := returnsIf_survey offers.finds
  case inr => exact absurd tellable untold
  rw [linesOf_eq noReturn] at filled
  have parallel : Parallel
      (Follows (Undecided findings.result.unused.length (Removal.linesOf world.input)) id)
      (dialogue (sessionConsole o) world.runner project manager findings.result.unused)
      (Removal.linesOf world.input)
      (dialogue (statusConsole o) world.runner project manager findings.result.unused)
      ((Removal.linesOf world.input).map bare) :=
    parallel_dialogue (fun _ => rfl) offers.nonempty rfl rfl filled
  obtain ⟨more, more', grown, grown', same, follows⟩ := parallel [] events
  have performs := performed_of_offers offers surveyed
  rw [run_bind_pure, linesOf_eq noReturn] at performs
  constructor
  case calls =>
    rw [calls_run_eq world read, performs, grown, grown', callsIn_append,
      (quiet_of_surveyed surveyed).calls, same]
    rfl
  case ending =>
    rw [performs]
    exact follows.map (statusAfter findings.result.unused)
  case shown => exact shown_of_performed read

/-- Findings that cannot be told end a run before it asks anything. -/
theorem silent_of_untellable (read : Options.read? arguments = some o)
    (offers : Offers world.disk o project manager findings statistics)
    (untellable : ¬ Tellable world.disk o project findings statistics) :
    ∃ events failure,
      run world arguments = ⟨1, events, some failure⟩ ∧ IsUntold failure ∧ Quiet events := by
  obtain ⟨events, ending, surveyed, ⟨told, -⟩ | ⟨-, failure, untold, rfl⟩⟩ :=
    returnsIf_survey offers.finds
  · exact absurd told untellable
  have performs : performed world o =
      (.error (.failed failure), ⟨linesOf world.input, events⟩) := by
    rw [performed_eq_survey offers, run_bind, surveyed]
    rfl
  exact ⟨events, failure, run_of_unreported world read performs untold.isReported_eq_false, untold,
    quiet_of_surveyed surveyed⟩

/-- Both ways to feed the dialogue lead to the same calls, and to the same end unless the input ends
before it is decided what to remove; but only where the run can tell its findings before. -/
theorem run_agrees (read : Options.read? arguments = some o)
    (offers : Offers world.disk o project manager findings statistics)
    (noReturn : '\r' ∉ world.input.toList) (filled : "" ∉ (linesOf world.input).tail) :
    Feeds world arguments o manager findings.result.unused
      (Tellable world.disk o project findings statistics) fun console =>
        (dialogue console world.runner project manager findings.result.unused).run
          ⟨Removal.linesOf world.input, []⟩ := by
  have agrees := fun tellable => agrees_of_tellable read offers tellable noReturn filled
  refine ⟨agrees, fun tellable console status whole recorded plain plain' => ?_,
    silent_of_untellable read offers⟩
  obtain ⟨ends, calls⟩ := dialogue_of_plain project status offers.nonempty whole plain
  have whole' : (sessionConsole o).reading = .wholeLines := rfl
  obtain ⟨ends', calls'⟩ := dialogue_of_plain project status offers.nonempty whole' plain'
  have own := agrees tellable
  rw [recorded] at own ⊢
  exact ⟨(own.calls.trans calls').trans calls.symm, (ends'.trans ends.symm) ▸ own.ending,
    own.shown⟩

end

attribute [local instance] Platform.standard

/-- Settings that name a manager. -/
def yarnSettings : DiskNode := .file (.text "\x7b\"packageManager\": \"yarn\"\x7d")

/-- An input that picks the only package beside a part that is no number, and confirms the removal in
the second round, without a line end. -/
def secondRound : World := ⟨oneSourceDisk "" yarnSettings, "1, x\nperhaps\n YES", .recorder 0⟩

def interactiveOptions : Options :=
  { Options.empty with directories := some "src", interactive := true }

def secondRoundFindings : Findings :=
  ⟨⟨[("packageManager", .text "yarn")]⟩, secondRound.disk, ⟨[], ["b"], 1⟩⟩

theorem harmless_b (stream : Stream) : Harmless stream (Name.ofString "b").points :=
  harmless_points (by decide)

theorem offers_secondRound : Offers secondRound.disk interactiveOptions Scan.application .yarn
    secondRoundFindings ⟨1, 0, []⟩ := by
  have loaded : Settings.load secondRound.disk Scan.application =
      .ok secondRoundFindings.settings := by
    have stands : secondRound.disk.lookAt (Settings.pathIn Scan.application) =
        .ok (some yarnSettings) := by cbv
    rw [Settings.load_of_lookAt (by decide) stands]
    rfl
  have made : analyzerOf secondRound.disk.view interactiveOptions secondRoundFindings.settings
      Scan.application = .ok (oneSourceAnalyzer ["b"]) := by
    have ignores : secondRoundFindings.settings.ignore = .ok [] := rfl
    exact analyzerOf_oneSourceDisk "" yarnSettings rfl rfl ignores rfl
  have analyzed := analyze_oneSourceDisk "" yarnSettings ["b"]
  have unused : (oneSourceAnalyzer ["b"]).conclude ⟨[Scan.onlySource], []⟩
      [Import.references (Content.toText (.text ""))] = (⟨[], ["b"], 1⟩, ⟨1, 0, []⟩) := by
    decide +kernel
  rw [unused] at analyzed
  exact ⟨rfl, Nat.zero_le 1, prepared_oneSourceDisk "" yarnSettings rfl rfl rfl, rfl,
    ⟨loaded, ⟨_, made, analyzed⟩, rfl⟩, List.cons_ne_nil _ _, by decide +kernel⟩

theorem tellable_secondRound : Tellable secondRound.disk interactiveOptions Scan.application
    secondRoundFindings ⟨1, 0, []⟩ := by
  have unsaved : ∀ file, interactiveOptions.output ≠ some file := fun _ named => by cases named
  refine ⟨fun told => Bool.noConfusion told.1, fun file named => absurd named (unsaved file),
    fun _ verbose => Bool.noConfusion verbose, fun _ markup member => ?_,
    fun _ file named => absurd named (unsaved file)⟩
  refine (Report.printedUnless_of_mem_listing member).exists_text (.flatMap ?_)
  exact List.forall_mem_singleton.mpr (harmless_b _)

theorem plain_secondRound :
    Plain .output .yarn ["b"] (Removal.linesOf secondRound.input) := by
  have parsed : Selection.parse ((Removal.linesOf secondRound.input).head?.getD "") 1 =
      .ok ⟨[0], ["x"]⟩ := by decide +kernel
  refine ⟨by decide, List.forall_mem_singleton.mpr (harmless_b _), fun selection parsed' => ?_⟩
  cases parsed.symm.trans parsed'
  decide

/-- The session is told on a wider console than the run. -/
theorem run_agrees_of_secondRound :
    let arguments := ["--dirs", "src", "--interactive"]
    Options.read? arguments = some interactiveOptions ∧
      Offers secondRound.disk interactiveOptions Scan.application .yarn secondRoundFindings
        ⟨1, 0, []⟩ ∧
      '\r' ∉ secondRound.input.toList ∧ "" ∉ (linesOf secondRound.input).tail ∧
      Tellable secondRound.disk interactiveOptions Scan.application secondRoundFindings
        ⟨1, 0, []⟩ ∧
      Agrees secondRound arguments interactiveOptions ["b"]
        ((dialogue ⟨100, .output, .wholeLines⟩ secondRound.runner Scan.application .yarn ["b"]).run
          ⟨Removal.linesOf secondRound.input, []⟩) ∧
      (run secondRound arguments).calls = [⟨["yarn", "remove", "b"], Scan.application⟩] := by
  intro arguments
  have read : Options.read? arguments = some interactiveOptions := by decide
  have noReturn : '\r' ∉ secondRound.input.toList := by decide
  have filled : "" ∉ (linesOf secondRound.input).tail := by decide +kernel
  have agrees := (run_agrees read offers_secondRound noReturn filled).elsewhere
    tellable_secondRound ⟨100, .output, .wholeLines⟩ 0 rfl rfl plain_secondRound plain_secondRound
  have whole : (Console.mk 100 .output .wholeLines).reading = .wholeLines := rfl
  have called :=
    (dialogue_of_plain Scan.application 0 (List.cons_ne_nil _ _) whole plain_secondRound).2
  refine ⟨read, offers_secondRound, noReturn, filled, tellable_secondRound, agrees,
    (agrees.calls.trans called).trans ?_⟩
  decide +kernel

/-- A disk with a project that declares two packages and has no sources. The one name reads, as markup,
as a tag that closes the tag which the dialogue puts around it. -/
def closingDisk : Disk :=
  manifestDisk "\x7b\"dependencies\": \x7b\"[/cyan][x]\": \"*\", \"b\": \"*\"\x7d\x7d"

def closingOptions : Options :=
  { Options.empty with interactive := true, directories := some "src", manager := some "npm" }

def closingFindings : Findings := ⟨⟨[]⟩, closingDisk, ⟨[], ["[/cyan][x]", "b"], 2⟩⟩

theorem offers_closingDisk :
    Offers closingDisk closingOptions Scan.application .npm closingFindings ⟨0, 0, []⟩ := by
  have prepared : Prepared closingDisk closingOptions Scan.application := by
    refine ⟨by decide, by cbv, fun name named => ?_⟩
    cases named
    rfl
  let unused : List Name := ["[/cyan][x]", "b"]
  let analyzer : Analyzer := ⟨Scan.application, ["src"], .none Scan.application, unused⟩
  have loads : Analyzer.load closingDisk.view Scan.application [] ["src"] (.none Scan.application) =
      .ok analyzer := by
    refine Analyzer.load_eq_ok_of_filtered ?_
    rw [closingDisk, load_manifestDisk]
    decide +kernel
  have made : analyzerOf closingDisk.view closingOptions closingFindings.settings
      Scan.application = .ok analyzer := (analyzerOf_eq_load rfl rfl rfl rfl _).trans loads
  have analyzed : analyzer.analyze closingDisk.view = .ok (⟨[], unused, 2⟩, ⟨0, 0, []⟩) := by
    have leads : closingDisk.locate Scan.application = .ok ["work", "app"] := by cbv
    have absent : closingDisk.isDirectory (Scan.application.child "src") = .ok false :=
      Disk.holds_of_absent leads rfl (by decide) (by decide) rfl (by decide) (by decide) _
    have concluded : analyzer.conclude .none [] = (⟨[], unused, 2⟩, ⟨0, 0, []⟩) := by
      decide +kernel
    rw [← concluded]
    exact Analyzer.analyze_of_absent "src" absent unused
  exact ⟨rfl, Nat.zero_le 1, prepared, rfl,
    ⟨Settings.load_manifestDisk _, ⟨_, made, analyzed⟩, rfl⟩, List.cons_ne_nil _ _, rfl⟩

/-- The listing puts another tag around the names, and the one cannot be told there. -/
theorem not_tellable_closingDisk :
    ¬ Tellable closingDisk closingOptions Scan.application closingFindings ⟨0, 0, []⟩ := by
  intro tellable
  obtain ⟨text, laid⟩ := tellable.result.listing rfl
    ((Name.ofString "[/cyan][x]").between "  - [red]" "[/]") (by decide +kernel)
  have refused : (paged (console .output)
      ((Name.ofString "[/cyan][x]").between "  - [red]" "[/]")).isOk = false := by decide +kernel
  rw [laid] at refused
  cases refused

/-- The other package is picked in a session, and removed. The run ends at the listing. -/
theorem not_agrees_of_closingTag :
    let world : World := ⟨closingDisk, "2\ny\n", .recorder 0⟩
    let arguments := ["--interactive", "--dirs", "src", "--package-manager", "npm"]
    let session := (dialogue ⟨consoleWidth, .output, .wholeLines⟩ world.runner Scan.application .npm
      closingFindings.result.unused).run ⟨Removal.linesOf world.input, []⟩
    Options.read? arguments = some closingOptions ∧
      Offers closingDisk closingOptions Scan.application .npm closingFindings ⟨0, 0, []⟩ ∧
      '\r' ∉ world.input.toList ∧ "" ∉ (linesOf world.input).tail ∧
      callsIn session.2.transcript = [⟨["npm", "uninstall", "--save", "b"], Scan.application⟩] ∧
      (run world arguments).calls = [] := by
  intro world arguments session
  have read : Options.read? arguments = some closingOptions := by decide
  have noReturn : '\r' ∉ world.input.toList := by decide
  have filled : "" ∉ (linesOf world.input).tail := by decide +kernel
  have called : callsIn session.2.transcript =
      [⟨["npm", "uninstall", "--save", "b"], Scan.application⟩] := by decide +kernel
  have offers : Offers world.disk closingOptions Scan.application .npm closingFindings ⟨0, 0, []⟩ :=
    offers_closingDisk
  obtain ⟨events, failure, ran, -, quiet⟩ :=
    silent_of_untellable read offers not_tellable_closingDisk
  refine ⟨read, offers, noReturn, filled, called, ?_⟩
  rw [ran]
  exact quiet.calls

end DependencyAudit.CommandLine

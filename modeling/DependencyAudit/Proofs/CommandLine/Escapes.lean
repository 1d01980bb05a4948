import DependencyAudit.Proofs.CommandLine.Output
import DependencyAudit.Proofs.Exclusion.Below
import DependencyAudit.Proofs.Removal.Endings
import DependencyAudit.Proofs.Report.Shown
import DependencyAudit.Proofs.Settings

namespace DependencyAudit.CommandLine

open Conversation FileSystem Removal

section

variable [Platform]

/-- The settings and the options make this analyzer of the project. -/
def Makes (disk : Disk) (o : Options) (project : Path) (analyzer : Analyzer) : Prop :=
  ∃ settings, Settings.load disk project = .ok settings ∧
    analyzerOf disk.view o settings project = .ok analyzer

/-- A disk is the one of the run, or the same with the document written. -/
def Saved (disk : Disk) (o : Options) (saved : Disk) : Prop :=
  saved = disk ∨ ∃ file text, o.output = some file ∧ disk.write (.ofString file) text = .ok saved

/-- The paths of which an audit asks a disk what is there. Lock files are looked for once the
document has been written. -/
inductive LooksAt (world : World) (o : Options) (project : Path) : Disk → Path → Prop
  | settings : LooksAt world o project world.disk (Settings.pathIn project)
  | manifest : LooksAt world o project world.disk (Manifest.pathIn project)
  | directory {analyzer : Analyzer} {name : String} :
      Makes world.disk o project analyzer → name ∈ Scan.effective analyzer.directories →
        LooksAt world o project world.disk (Scan.startOf project name)
  | lockFile {disk : Disk} {manager : Manager} {path : Path} :
      o.interactive → o.manager = none → Saved world.disk o disk →
        manager.lockPath? project = some path → LooksAt world o project disk path

/-- The names, the paths and the parts of answers that an audit puts into what it prints. -/
inductive Shows (world : World) (o : Options) (project : Path) : List Text.Point → Prop
  | settings : o.verbose → Shows world o project (Text.points (Settings.pathIn project).toText)
  | package {name : Name} :
      Declares world.disk.view project name → Shows world o project name.points
  | directory {analyzer : Analyzer} {path : Path} :
      o.verbose → Makes world.disk o project analyzer →
        path ∈ (analyzer.scan world.disk.view).found.skipped →
        Shows world o project (Text.points path.toText)
  | document {file : String} :
      o.output = some file → Shows world o project (Text.points (Path.ofString file).toText)
  | answer {line : String} {token : List Char} :
      o.interactive → line ∈ linesOf world.input →
        token ∈ Selection.tokens (Text.trim line.toList) →
        Shows world o project (token.map .char)

/-- What lets a failure end an audit that is not reported. -/
inductive AuditEscapes (world : World) (o : Options) (project : Path) : Failure → Prop
  /-- A path, or a name on the way, is too long to be looked at. -/
  | lookup {disk : Disk} {path : Path} :
      LooksAt world o project disk path → disk.locate path = .error .nameTooLong →
        AuditEscapes world o project (.access (.nameTooLong path.toText))
  /-- The bytes of the settings are no text. -/
  | settingsBytes {content : Content} {fault : Text.Utf8Fault} :
      world.disk.content (Settings.pathIn project) = .ok content →
        content.toStrictText = .error fault → AuditEscapes world o project (.undecodable fault)
  /-- A number in the settings is too long to be converted. -/
  | settingsNumber {content : Content} {text : String} {number : Text.TooLong} :
      world.disk.content (Settings.pathIn project) = .ok content →
        content.toStrictText = .ok text → Json.LongRun text.toList number →
        AuditEscapes world o project (.tooLong number)
  /-- The settings are nested too deep to be read. -/
  | settingsDepth {content : Content} {text : String} (place : Json.TooDeep) :
      world.disk.content (Settings.pathIn project) = .ok content →
        content.toStrictText = .ok text → ¬ Json.Shallow text →
        AuditEscapes world o project (.tooDeep place)
  /-- A number in the manifest is too long to be converted. -/
  | manifestNumber {text : String} {number : Text.TooLong} :
      world.disk.read (Manifest.pathIn project) = .ok text → Json.LongRun text.toList number →
        AuditEscapes world o project (.tooLong number)
  /-- The manifest is nested too deep to be read. -/
  | manifestDepth {text : String} (place : Json.TooDeep) :
      world.disk.read (Manifest.pathIn project) = .ok text → ¬ Json.Shallow text →
        AuditEscapes world o project (.tooDeep place)
  /-- A line of the settings or of the options is no pattern. -/
  | pattern {settings : Settings} {lines : List String} {line : String} {fault : Exclusion.Fault} :
      Settings.load world.disk project = .ok settings → settings.exclusions = .ok lines →
        line ∈ lines ++ o.exclude → Exclusion.Pattern.ofLine? line = .error fault →
        AuditEscapes world o project (.pattern fault)
  /-- The document cannot be written to the file that the options name. -/
  | document {analyzer : Analyzer} {result : Result} {statistics : Statistics} {file : String}
      {refusal : Refusal} :
      Makes world.disk o project analyzer →
        analyzer.analyze world.disk.view = .ok (result, statistics) → o.output = some file →
        world.disk.write (.ofString file) (Report.document result) = .error refusal →
        AuditEscapes world o project (.access refusal)
  /-- A number in an answer is too long to be converted. -/
  | answerNumber {line : String} {token : List Char} :
      o.interactive → line ∈ linesOf world.input →
        token ∈ Selection.tokens (Text.trim line.toList) → Selection.IsLong token →
        AuditEscapes world o project (.tooLong ⟨token.length⟩)
  /-- The removal fails otherwise than in a way that is reported. -/
  | program {manager : Manager} {packages : List Name} {failure : Failure} :
      o.interactive → (∀ package ∈ packages, Declares world.disk.view project package) →
        world.runner (manager.removalCommand packages) project = .error failure →
        failure.isReported = false → AuditEscapes world o project failure
  /-- A name, a path or a part of an answer cannot be printed: it holds an opening bracket, as all of
  them are read as markup, or half a surrogate pair, which standard output does not take. -/
  | printing {list : List Text.Point} {p : Text.Point} {failure : Failure} :
      Shows world o project list → p ∈ list → Breaks (statusConsole o).stream p failure →
        AuditEscapes world o project failure

/-- What a run comes to before anything is reported. -/
def performed (world : World) (o : Options) : Except Ending Nat × Desk :=
  (perform world o).run ⟨linesOf world.input, []⟩

/-- What lets a failure end a run that is not reported. -/
inductive Escapes (world : World) (o : Options) : Failure → Prop
  | nulCharacter :
      Disk.hasNul (projectPath o) ∨ hasNulOutput o → Escapes world o .nulCharacter
  | linkLoop {path : Path} :
      world.disk.realPath (projectPath o) = .error path → Escapes world o (.linkLoop path)
  | audit {project : Path} {failure : Failure} :
      Prepared world.disk o project → AuditEscapes world o project failure →
        Escapes world o failure
  /-- The message of a failure is read as markup where it is reported. -/
  | report {failure : Failure} (fault : Terminal.MarkupFault) :
      (performed world o).1 = .error (.failed failure) → failure.isReported →
        '[' ∈ failure.message.toList → Escapes world o (.markup fault)

/-- How a run ends that tells what becomes of it, from what it has come to before. -/
inductive Tells : Except Ending Nat → List Event → Outcome → Prop
  | status {status : Nat} {events : List Event} :
      status ≤ 1 → Tells (.ok status) events ⟨status, events, none⟩
  /-- The manager that the options name is none of the known ones. -/
  | refused {text : String} :
      Terminal.page consoleWidth refusalLine = .ok text →
        Tells (.error (.finished 1)) [.printed .error text] ⟨1, [.printed .error text], none⟩
  | aborted {events : List Event} :
      Tells (.error .aborted) events ⟨1, events ++ [abortNotice], none⟩
  | reported {failure : Failure} {events : List Event} {text : String} :
      failure.isReported → Terminal.page consoleWidth (errorLine failure.message) = .ok text →
        Tells (.error (.failed failure)) events ⟨1, events ++ [.printed .error text], none⟩

/-- An audit can end early in these ways. -/
def Stops (escapes : Failure → Prop) : Ending → Prop
  | .aborted => True
  | .finished _ => False
  | .failed failure => failure.isReported ∨ escapes failure

section

variable {world : World} {o : Options} {project : Path}

/-- A text that an audit puts into what it prints stops it only by an opening bracket. -/
theorem stops_of_bracket {text : String} (shows : Shows world o project (Text.points text))
    (bracket : '[' ∈ text.toList) (fault : Terminal.MarkupFault) :
    Stops (AuditEscapes world o project) (.failed (.markup fault)) :=
  .inr (.printing shows (mem_points.mpr bracket) (.bracket fault))

theorem stops_of_load {failure : Failure}
    (failed : Settings.load world.disk project = .error failure) :
    Stops (AuditEscapes world o project) (.failed failure) := by
  rcases Settings.failure_of_load failed with ⟨c, rfl⟩ | ⟨refusal, refused, rfl⟩ |
    ⟨content, given, ⟨fault, noText, rfl⟩ | ⟨text, number, decoded, rfl, long⟩ |
      ⟨text, place, decoded, rfl, deep⟩⟩
  · exact .inl rfl
  · obtain ⟨tooLong, rfl⟩ := Disk.locate_of_refused refused
    exact .inr (.lookup .settings tooLong)
  · exact .inr (.settingsBytes given noText)
  · exact .inr (.settingsNumber given decoded long)
  · exact .inr (.settingsDepth place given decoded deep)

/-- No analyzer is made because of a fault of the configuration, because a line is no pattern, or
because the manifest is not loaded. -/
theorem failure_of_analyzerOf {view : View} {settings : Settings} {failure : Failure}
    (failed : analyzerOf view o settings project = .error failure) :
    (∃ c, failure = .configuration c) ∨
      (∃ exclusions fault, settings.exclusions = .ok exclusions ∧ failure = .pattern fault ∧
        Exclusion.Excluder.ofLines project exclusions o.exclude = .error fault) ∨
      Manifest.load view project = .error failure := by
  have configuration : ∀ {α : Type} {x : Except Configuration α},
      x.mapError Failure.configuration = .error failure → ∃ c, failure = .configuration c := by
    intro α x failed
    obtain ⟨c, -, rfl⟩ := Except.mapError_eq_error_iff.mp failed
    exact ⟨c, rfl⟩
  rw [analyzerOf_eq_bind] at failed
  rcases Except.bind_eq_error_iff.mp failed with unset | ⟨ignored, -, failed⟩
  · exact .inl (configuration unset)
  rcases Except.bind_eq_error_iff.mp failed with unset | ⟨directories, -, failed⟩
  · unfold directoriesOf at unset
    split at unset
    · exact .inl (configuration unset)
    · cases unset
  rcases Except.bind_eq_error_iff.mp failed with unset | ⟨exclusions, excludes, failed⟩
  · exact .inl (configuration unset)
  rw [Except.mapError_eq_ok_iff] at excludes
  rcases Except.bind_eq_error_iff.mp failed with refused | ⟨excluder, -, failed⟩
  · obtain ⟨fault, noPattern, rfl⟩ := Except.mapError_eq_error_iff.mp refused
    exact .inr (.inl ⟨exclusions, fault, excludes, rfl, noPattern⟩)
  rcases Except.bind_eq_error_iff.mp failed with unloaded | ⟨manifest, -, made⟩
  · exact .inr (.inr unloaded)
  · cases made

theorem stops_of_analyzerOf {settings : Settings} {failure : Failure}
    (loaded : Settings.load world.disk project = .ok settings)
    (failed : analyzerOf world.disk.view o settings project = .error failure) :
    Stops (AuditEscapes world o project) (.failed failure) := by
  rcases failure_of_analyzerOf failed with ⟨c, rfl⟩ | ⟨exclusions, fault, excludes, rfl, refused⟩ |
    unloaded
  · exact .inl rfl
  · obtain ⟨line, member, noPattern⟩ := Exclusion.Excluder.exists_fault_of_ofLines refused
    exact .inr (.pattern loaded excludes member noPattern)
  · rcases Manifest.failure_of_load unloaded with ⟨c, rfl⟩ | ⟨text, number, read, rfl, long⟩ |
      ⟨text, place, read, rfl, deep⟩ | ⟨refusal, refused, rfl⟩
    · exact .inl rfl
    · exact .inr (.manifestNumber read long)
    · exact .inr (.manifestDepth place read deep)
    · obtain ⟨tooLong, rfl⟩ := Disk.locate_of_refused refused
      exact .inr (.lookup .manifest tooLong)

theorem project_of_makes {disk : Disk} {analyzer : Analyzer}
    (makes : Makes disk o project analyzer) : analyzer.project = project := by
  obtain ⟨settings, -, made⟩ := makes
  obtain ⟨_, directories, excluder, -, load⟩ := exists_load_of_analyzerOf made
  obtain ⟨manifest, -, same⟩ := Except.bind_eq_ok_iff.mp load
  cases same
  rfl

theorem stops_of_analyze {analyzer : Analyzer} {failure : Failure}
    (makes : Makes world.disk o project analyzer)
    (failed : analyzer.analyze world.disk.view = .error failure) :
    Stops (AuditEscapes world o project) (.failed failure) := by
  rcases Analyzer.analyze_eq_error_iff.mp failed with unreadable | ⟨_, -, refusal, refused, rfl⟩
  · obtain ⟨path, -, refusal, -, rfl⟩ := Analyzer.exists_refusal_of_readAll unreadable
    exact .inl rfl
  · rw [Analyzer.scan, Scan.scan_eq, project_of_makes makes] at refused
    obtain ⟨name, member, refuses⟩ := List.exists_of_findSome?_eq_some refused
    obtain ⟨tooLong, rfl⟩ := Disk.locate_of_refused (Scan.refusalAt_eq_some_iff.mp refuses)
    exact .inr (.lookup (.directory makes member) tooLong)

/-- Only a text that cannot be printed stops a conversation in which a result is printed. What is
printed of it besides its own words are the unused packages, the directories that have been passed
over, and the file of the document. -/
theorem ends_present_of {result : Result} {statistics : Statistics} {known : String → Prop}
    {stops : Ending → Prop}
    (names : o.json = false → ∀ name ∈ result.unused, ∀ p ∈ name.points, ∀ failure,
      Breaks .output p failure → stops (.failed failure))
    (skipped : o.verbose → ∀ path ∈ statistics.skipped, '[' ∈ path.toList →
      ∀ fault, stops (.failed (.markup fault)))
    (saved : ∀ file, o.output = some file → '[' ∈ (Path.ofString file).toText.toList →
      ∀ fault, stops (.failed (.markup fault))) :
    Ends known Anything stops (present o result statistics) := by
  unfold present
  split
  next => exact .of_note rfl
  next noJson =>
  have lists : Ends known Anything stops
      ((Report.listing result).forM (tell (console .output))) := by
    refine .of_forM fun markup member => .of_tell fun failure refused => ?_
    obtain ⟨p, inNames, breaks⟩ := Report.printedUnless_of_mem_listing member failure refused
    obtain ⟨name, unused, inName⟩ := List.mem_flatMap.mp inNames
    exact names (by simpa using noJson) name unused p inName failure breaks
  dsimp only
  split
  case' isTrue verbose =>
    refine (Ends.of_ofExcept fun fault unlaid => ?_).bind fun _ _ => ?_
    · refine Except.of_eq_error (fun fine => Report.exists_summary_of_plain ?_ consoleWidth) unlaid
      exact fun path member bracket => fine (skipped verbose path member bracket fault)
    refine (Ends.of_note rfl).bind fun _ _ => ?_
  -- With the summary or without it, the listing follows.
  all_goals
    refine lists.bind fun _ _ => ?_
    split
    next => exact .of_pure trivial
    next file named =>
      refine .of_say fun fault refused => saved file named ?_ fault
      exact Except.of_eq_error exists_page_saved refused

section

variable {analyzer : Analyzer} {result : Result} {statistics : Statistics}
  {known : String → Prop} (makes : Makes world.disk o project analyzer)
  (analyzed : analyzer.analyze world.disk.view = .ok (result, statistics))
include makes analyzed

theorem ends_save :
    Ends known (Saved world.disk o) (Stops (AuditEscapes world o project))
      (save world.disk o result) := by
  unfold save
  split
  next => exact .of_pure (.inl rfl)
  next file named =>
    rw [Report.ofList_strokes]
    refine (Ends.of_ofExcept fun refusal refused => ?_).bind fun written wrote => ?_
    · exact .inr (.document makes analyzed named refused)
    · exact (Ends.of_note rfl).bind fun _ _ => .of_pure (.inr ⟨file, _, named, wrote⟩)

theorem declares_of_mem_unused {name : Name} (unused : name ∈ result.unused) :
    Declares world.disk.view project name := by
  obtain ⟨settings, loaded, made⟩ := makes
  obtain ⟨_, _, _, _, _, _, declares, -⟩ := dispensable_of_mem_unused loaded made analyzed unused
  exact declares

theorem shows_of_mem_skipped (verbose : o.verbose) {text : String}
    (skipped : text ∈ statistics.skipped) : Shows world o project (Text.points text) := by
  obtain ⟨references, -, -, same⟩ := Analyzer.analyze_eq_ok_iff.mp analyzed
  cases same
  obtain ⟨path, member, rfl⟩ := List.mem_map.mp skipped
  exact .directory verbose makes member

theorem ends_present :
    Ends known Anything (Stops (AuditEscapes world o project)) (present o result statistics) := by
  refine ends_present_of (fun noJson name unused p inName failure breaks => ?_)
    (fun verbose path skipped bracket => ?_) fun file named bracket => ?_
  · have stream : (statusConsole o).stream = .output := by simp [statusConsole, noJson, console]
    exact .inr (.printing (.package (declares_of_mem_unused makes analyzed unused)) inName
      (stream ▸ breaks))
  · exact stops_of_bracket (shows_of_mem_skipped makes analyzed verbose skipped) bracket
  · exact stops_of_bracket (.document named) bracket

end

omit [Platform] in
theorem mem_known_of_managerOf {disk : Disk} {settings : Settings} {manager : Manager}
    (prepared : Prepared world.disk o project)
    (chosen : managerOf disk o settings project = .ok manager) : manager ∈ Manager.known := by
  unfold managerOf at chosen
  split at chosen
  next name named =>
    cases chosen
    obtain ⟨manager, found⟩ := Option.isSome_iff_exists.mp (prepared.known name named)
    rw [Manager.ofName, found]
    exact Manager.mem_known_of_ofName? found
  next =>
    obtain ⟨setting, given, chosen⟩ := Except.bind_eq_ok_iff.mp chosen
    rw [Except.mapError_eq_ok_iff] at given
    cases setting with
    | some manager =>
      cases chosen
      exact Settings.mem_known_of_manager? given
    | none => exact Manager.mem_known_of_detect (Except.mapError_eq_ok_iff.mp chosen)

theorem stops_of_managerOf {disk : Disk} {settings : Settings} {failure : Failure}
    (interactive : o.interactive) (saved : Saved world.disk o disk)
    (failed : managerOf disk o settings project = .error failure) :
    Stops (AuditEscapes world o project) (.failed failure) := by
  unfold managerOf at failed
  split at failed
  next => cases failed
  next unnamed =>
    rcases Except.bind_eq_error_iff.mp failed with unset | ⟨setting, -, failed⟩
    · obtain ⟨c, -, rfl⟩ := Except.mapError_eq_error_iff.mp unset
      exact .inl rfl
    cases setting with
    | some manager => cases failed
    | none =>
      obtain ⟨refusal, refused, rfl⟩ := Except.mapError_eq_error_iff.mp failed
      obtain ⟨manager, -, path, atPath, unknown⟩ := Manager.exists_refusal_of_detect refused
      obtain ⟨tooLong, rfl⟩ := Disk.locate_of_refused unknown
      exact .inr (.lookup (.lockFile interactive unnamed saved atPath) tooLong)

theorem ends_offerRemoval {disk : Disk} {settings : Settings} {unused : List Name}
    (prepared : Prepared world.disk o project) (saved : Saved world.disk o disk)
    (declares : ∀ name ∈ unused, Declares world.disk.view project name) :
    Ends (· ∈ linesOf world.input) Anything (Stops (AuditEscapes world o project))
      (offerRemoval world disk o settings project unused) := by
  unfold offerRemoval
  split
  next asked =>
    refine (Ends.of_ofExcept fun failure failed => ?_).bind fun manager chosen => ?_
    · exact stops_of_managerOf asked.1 saved failed
    have known := mem_known_of_managerOf prepared chosen
    refine Ends.bind (ends_dialogue ?_ (fun _ => .inl rfl) ?_
      (Manager.not_mem_name_of_mem_known known) trivial ?_ ?_) fun _ _ => .of_pure trivial
    · exact fun name member p inName failure breaks =>
        .inr (.printing (.package (declares name member)) inName breaks)
    · intro packages failure among failed
      have declared : ∀ package ∈ packages, Declares world.disk.view project package :=
        fun package member => declares package (among member)
      cases reported : failure.isReported with
      | true => exact .inl reported
      | false => exact .inr (.program asked.1 declared failed reported)
    · exact fun line isKnown token inLine bracket fault =>
        .inr (.printing (.answer asked.1 isKnown inLine) (List.mem_map_of_mem bracket)
          (.bracket fault))
    · exact fun line isKnown token inLine long => .inr (.answerNumber asked.1 isKnown inLine long)
  next => exact .of_pure trivial

/-- An audit that has begun ends in one of the ways that are listed, or it comes to a status. -/
theorem ends_audit (prepared : Prepared world.disk o project) :
    Ends (· ∈ linesOf world.input) (· ≤ 1) (Stops (AuditEscapes world o project))
      (audit world o project) := by
  unfold audit
  refine (Ends.of_ofExcept fun failure failed => ?_).bind fun settings loaded => ?_
  · exact stops_of_load failed
  dsimp only
  refine Ends.after_ite (fun told => .of_say fun fault refused => ?_) ?_
  · exact stops_of_bracket (.settings told.1) (Except.of_eq_error exists_page_settings refused) fault
  refine (Ends.of_ofExcept fun failure failed => ?_).bind fun analyzer made => ?_
  · exact stops_of_analyzerOf loaded failed
  have makes : Makes world.disk o project analyzer := ⟨settings, loaded, made⟩
  refine (Ends.of_forM fun path _ => Ends.of_note rfl).bind fun _ _ => ?_
  refine (Ends.of_ofExcept fun failure failed => ?_).bind fun answer analyzed => ?_
  · exact stops_of_analyze makes failed
  obtain ⟨result, statistics⟩ := answer
  refine (ends_save makes analyzed).bind fun disk saved => ?_
  refine (ends_present makes analyzed).bind fun _ _ => ?_
  refine (ends_offerRemoval prepared saved fun name unused => ?_).bind fun left _ => .of_pure ?_
  · exact declares_of_mem_unused makes analyzed unused
  · split
    · exact Nat.zero_le 1
    · exact Nat.le_refl 1

/-- A request is met, or a file that cannot be named ends the run before. -/
theorem performed_of_request {request : Request} (world : World)
    (asked : o.request? = some request) :
    (∃ status, (performed world o).1 = .ok status ∧ status ≤ 1) ∨
      ∃ failure, (performed world o).1 = .error (.failed failure) ∧ Escapes world o failure := by
  have answers : perform world o = answer o request := by rw [perform, asked]
  obtain ⟨events, -, -, holds⟩ := answersTo_answer o request ⟨linesOf world.input, []⟩
  unfold performed
  rw [answers]
  cases ended : ((answer o request).run ⟨linesOf world.input, []⟩).1 with
  | ok status =>
    rw [ended] at holds
    refine .inl ⟨status, rfl, ?_⟩
    cases holds with
    | version | help => exact Nat.zero_le 1
    | completion =>
      split
      · exact Nat.le_refl 1
      · exact Nat.zero_le 1
  | error stop =>
    rw [ended] at holds
    cases holds with
    | nulCharacter nul => exact .inr ⟨_, rfl, .nulCharacter (.inr nul.2)⟩

/-- What a run comes to before anything is reported: a status, the end of the input, a manager that
is refused, or a failure that is reported or listed above. -/
theorem performed_cases (world : World) (proper : o.requests = [] → o.positional.length ≤ 1) :
    (∃ status, (performed world o).1 = .ok status ∧ status ≤ 1) ∨
      (performed world o).1 = .error .aborted ∨
      ((performed world o).1 = .error (.finished 1) ∧ ∃ text,
        Terminal.page consoleWidth refusalLine = .ok text ∧
          (performed world o).2.transcript = [.printed .error text]) ∨
      ∃ failure, (performed world o).1 = .error (.failed failure) ∧
        (failure.isReported ∨ Escapes world o failure) := by
  cases asked : o.request? with
  | some request =>
    rcases performed_of_request world asked with met | ⟨failure, ended, escapes⟩
    · exact .inl met
    · exact .inr (.inr (.inr ⟨failure, ended, .inr escapes⟩))
  | none =>
  have noRequest : o.requests = [] := request?_eq_none_iff.mp asked
  have one := proper noRequest
  unfold performed
  rw [perform_of_noRequest world noRequest, run_bind]
  obtain ⟨events, grown, taken, prepared⟩ :=
    preparesTo_prepare world o ⟨linesOf world.input, []⟩
  generalize ended : ((prepare world o).run ⟨linesOf world.input, []⟩).1 = ending at prepared
  cases prepared with
  | @ready project prepared =>
    have left : ∀ line ∈ ((prepare world o).run ⟨linesOf world.input, []⟩).2.answers,
        line ∈ linesOf world.input := by
      intro line member
      rw [show linesOf world.input = _ from taken]
      exact List.mem_append_right _ member
    obtain ⟨-, returned, stopped⟩ := ends_audit prepared _ left
    dsimp only
    cases audited : ((audit world o project).run
        ((prepare world o).run ⟨linesOf world.input, []⟩).2).1 with
    | ok status => exact .inl ⟨status, rfl, returned status audited⟩
    | error stop =>
      have stops := stopped stop audited
      cases stop with
      | aborted => exact .inr (.inl rfl)
      | finished status => exact stops.elim
      | failed failure =>
        exact .inr (.inr (.inr ⟨failure, rfl, stops.imp_right (.audit prepared)⟩))
  | nulCharacter nul => exact .inr (.inr (.inr ⟨_, rfl, .inr (.nulCharacter nul)⟩))
  | tooMany more => exact absurd more (Nat.not_lt.mpr one)
  | linkLoop loop => exact .inr (.inr (.inr ⟨_, rfl, .inr (.linkLoop loop)⟩))
  | unknownManager _ _ laid => exact .inr (.inr (.inl ⟨rfl, _, laid, grown⟩))

end

/-- A failure is reported in a line of its own, if that can be laid out. -/
theorem run_report {failure : Failure} {text : String}
    (laid : Terminal.page consoleWidth (errorLine failure.message) = .ok text) (desk : Desk) :
    (report failure).run desk =
      (.ok 1, ⟨desk.answers, desk.transcript ++ [.printed .error text]⟩) := by
  unfold errorLine at laid
  have line : Terminal.page (console .error).width s!"[red]Error:[/] {failure.message}" =
    .ok text := laid
  rw [report, say, line]
  rfl

theorem run_report_of_refused {failure : Failure} {fault : Terminal.MarkupFault}
    (refused : Terminal.page consoleWidth (errorLine failure.message) = .error fault)
    (desk : Desk) :
    (report failure).run desk = (.error (.failed (.markup fault)), desk) := by
  unfold errorLine at refused
  have line : Terminal.page (console .error).width s!"[red]Error:[/] {failure.message}" =
    .error fault := refused
  rw [report, say, line]
  rfl

/-- A failure for the user is reported. -/
theorem run_of_reported (world : World) {arguments : List String} {o : Options} {failure : Failure}
    {desk : Desk} (read : Options.read? arguments = some o)
    (ran : performed world o = (.error (.failed failure), desk)) (reported : failure.isReported) :
    run world arguments = conclude ((report failure).run desk).1 ((report failure).run desk).2 := by
  rw [run_of_error world read ran rfl]
  dsimp only
  rw [if_pos reported]

/-- Any other failure ends the run as it is. -/
theorem run_of_unreported (world : World) {arguments : List String} {o : Options}
    {failure : Failure} {desk : Desk} (read : Options.read? arguments = some o)
    (ran : performed world o = (.error (.failed failure), desk))
    (unreported : failure.isReported = false) :
    run world arguments = ⟨1, desk.transcript, some failure⟩ := by
  rw [run_of_error world read ran rfl]
  dsimp only
  rw [if_neg (by simp [unreported])]
  rfl

/-- A run tells what becomes of it, unless one of the causes that are listed ends it with a failure
that is not reported. -/
theorem tells_or_escapes (world : World) {arguments : List String} {o : Options}
    (read : Options.read? arguments = some o)
    (proper : o.requests = [] → o.positional.length ≤ 1) :
    Tells (performed world o).1 (performed world o).2.transcript (run world arguments) ∨
      ∃ failure, Escapes world o failure ∧
        run world arguments = ⟨1, (performed world o).2.transcript, some failure⟩ := by
  have ways := performed_cases world proper
  cases ran : performed world o with
  | mk ending desk =>
  have ended : ∀ stop, ending = .error stop → run world arguments = _ := fun stop same =>
    run_of_error world read (same ▸ ran) rfl
  rw [ran] at ways
  rcases ways with ⟨status, rfl, small⟩ | rfl | ⟨rfl, text, laid, same⟩ | ⟨failure, rfl, known⟩
  · rw [run_of_ok world read ran]
    exact .inl (.status small)
  · rw [ended _ rfl]
    exact .inl .aborted
  · rw [ended _ rfl]
    change Tells _ desk.transcript ⟨1, desk.transcript, none⟩ ∨ _
    dsimp only at same
    rw [same]
    exact .inl (.refused laid)
  cases reported : failure.isReported with
  | false =>
    have escapes := known.resolve_left (by simp [reported])
    exact .inr ⟨failure, escapes, run_of_unreported world read ran reported⟩
  | true =>
    rw [run_of_reported world read ran reported]
    cases laid : Terminal.page consoleWidth (errorLine failure.message) with
    | ok text =>
      rw [run_report laid]
      exact .inl (.reported reported laid)
    | error fault =>
      have bracket : '[' ∈ failure.message.toList := Except.of_eq_error exists_page_error laid
      rw [run_report_of_refused laid]
      exact .inr ⟨_, .report fault (by rw [ran]) reported bracket, rfl⟩

theorem Tells.escaped_eq_none {ending : Except Ending Nat} {events : List Event} {outcome : Outcome}
    (tells : Tells ending events outcome) : outcome.escaped = none := by
  cases tells <;> rfl

theorem prepare_eq_pure {world : World} {o : Options} {project : Path}
    (one : o.positional.length ≤ 1) (prepared : Prepared world.disk o project) :
    prepare world o = pure project := by
  unfold prepare
  rw [if_neg prepared.noNul, if_neg (Nat.not_lt.mpr one), prepared.resolved]
  refine (pure_bind project _).trans ?_
  split
  next => rfl
  next name named =>
    have known := prepared.known name named
    rw [if_neg (by simp [Option.isSome_iff_ne_none.mp known])]

theorem performed_of_prepared {world : World} {o : Options} {project : Path}
    (noRequest : o.requests = []) (one : o.positional.length ≤ 1)
    (prepared : Prepared world.disk o project) :
    performed world o = (audit world o project).run ⟨linesOf world.input, []⟩ := by
  unfold performed
  rw [perform_of_noRequest world noRequest, prepare_eq_pure one prepared]
  rfl

/-- Settings that are not loaded end a run before anything is printed. -/
theorem performed_of_unloaded {world : World} {o : Options} {project : Path} {failure : Failure}
    (noRequest : o.requests = []) (one : o.positional.length ≤ 1)
    (prepared : Prepared world.disk o project)
    (failed : Settings.load world.disk project = .error failure) :
    performed world o = (.error (.failed failure), ⟨linesOf world.input, []⟩) := by
  rw [performed_of_prepared noRequest one prepared]
  unfold audit
  rw [failed]
  rfl

end

attribute [local instance] Platform.standard

/-- A disk with a project whose settings are these. -/
def settingsDisk (content : Content) : Disk :=
  ⟨[(["work", "app", ".depcheck-lite.json"], .file content),
    (["work", "app", "package.json"], .file (.text "\x7b\x7d"))], ["work", "app"]⟩

theorem prepared_settingsDisk (content : Content) :
    Prepared (settingsDisk content) Options.empty Scan.application where
  noNul := by decide
  resolved := by cbv
  known := by
    intro name named
    cases named

theorem load_settingsDisk (content : Content) :
    Settings.load (settingsDisk content) Scan.application =
      content.toStrictText.mapError .undecodable >>=
        Settings.ofText (Settings.pathIn Scan.application) := by
  have stands : (settingsDisk content).lookAt (Settings.pathIn Scan.application) =
      .ok (some (.file content)) := by cbv
  exact Settings.load_of_lookAt (by decide) stands

/-- Settings that are no object are reported. -/
theorem tells_of_list :
    let world : World := ⟨settingsDisk (.text "[]"), "", .recorder 0⟩
    let failure : Failure := .configuration (.notAnObject (Settings.pathIn Scan.application))
    Options.read? [] = some Options.empty ∧
      (Options.empty.requests = [] → Options.empty.positional.length ≤ 1) ∧
      (performed world Options.empty).1 = .error (.failed failure) ∧
      Tells (performed world Options.empty).1 (performed world Options.empty).2.transcript
        (run world []) := by
  intro world failure
  have read : Options.read? [] = some Options.empty := rfl
  have one : Options.empty.positional.length ≤ 1 := Nat.zero_le 1
  have failed : Settings.load world.disk Scan.application = .error failure := by
    rw [load_settingsDisk]
    rfl
  have ran := performed_of_unloaded rfl one (prepared_settingsDisk _) failed
  refine ⟨read, fun _ => one, congrArg Prod.fst ran, ?_⟩
  rcases tells_or_escapes world read (fun _ => one) with tells | ⟨other, -, escaped⟩
  · exact tells
  · have plain : '[' ∉ failure.message.toList := by decide
    obtain ⟨text, laid⟩ := exists_page_error plain
    have reports := run_of_reported world read ran rfl
    rw [escaped, run_report laid] at reports
    cases congrArg Outcome.escaped reports

/-- Settings that are no text are not reported: the run ends with a failure of its own. -/
theorem not_tells_of_undecodable :
    let world : World := ⟨settingsDisk (.raw [0xff]), "", .recorder 0⟩
    Options.read? [] = some Options.empty ∧
      (∃ fault, run world [] = ⟨1, [], some (.undecodable fault)⟩) ∧
      ¬ Tells (performed world Options.empty).1 (performed world Options.empty).2.transcript
        (run world []) := by
  intro world
  have read : Options.read? [] = some Options.empty := rfl
  have undecodable : ∃ fault, (Content.raw [0xff]).toStrictText = .error fault := ⟨_, by cbv⟩
  obtain ⟨fault, undecodable⟩ := undecodable
  have failed : Settings.load world.disk Scan.application = .error (.undecodable fault) := by
    rw [load_settingsDisk, undecodable]
    rfl
  have one : Options.empty.positional.length ≤ 1 := Nat.zero_le 1
  have ran := performed_of_unloaded rfl one (prepared_settingsDisk _) failed
  have escapes : run world [] = ⟨1, [], some (.undecodable fault)⟩ :=
    run_of_unreported world read ran rfl
  refine ⟨read, ⟨fault, escapes⟩, fun tells => ?_⟩
  have nothing := tells.escaped_eq_none
  rw [escapes] at nothing
  cases nothing

end DependencyAudit.CommandLine

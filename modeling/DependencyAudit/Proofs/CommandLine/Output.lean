import DependencyAudit.Proofs.CommandLine.Status
import DependencyAudit.Proofs.Removal.Shown
import DependencyAudit.Proofs.Report.Lines

namespace DependencyAudit.CommandLine

open Conversation FileSystem Removal

section

variable {o : Options}

/-- Nothing is printed on the output, and no file is written. -/
def Muted : Event → Prop
  | .printed .output _ | .wrote _ _ => False
  | _ => True

/-- The texts that are printed on the output in some events. -/
def outputIn (events : List Event) : List String :=
  events.filterMap fun
    | .printed stream text => if stream = .output then some text else none
    | _ => none

theorem outputIn_append (events more : List Event) :
    outputIn (events ++ more) = outputIn events ++ outputIn more := List.filterMap_append

/-- The disk after one more event. -/
def diskAfterEvent (disk : Disk) : Event → Disk
  | .wrote path text => (disk.write path text).toOption.getD disk
  | _ => disk

/-- Events in which nothing is printed on the output and no file is written. -/
def Mutes (events : List Event) : Prop := ∀ event ∈ events, Muted event

namespace Mutes

variable {events more : List Event}

theorem nil : Mutes [] := by simp [Mutes]

theorem append (first : Mutes events) (second : Mutes more) : Mutes (events ++ more) :=
  fun event member => (List.mem_append.mp member).elim (first event) (second event)

theorem singleton {event : Event} (muted : Muted event) : Mutes [event] :=
  fun _ member => List.mem_singleton.mp member ▸ muted

theorem outputIn_eq_nil (mutes : Mutes events) : outputIn events = [] := by
  refine List.filterMap_eq_nil_iff.mpr fun event member => ?_
  have muted := mutes event member
  cases event with
  | printed stream text =>
    cases stream with
    | output => exact muted.elim
    | error => rfl
  | _ => rfl

theorem foldl_diskAfterEvent (mutes : Mutes events) (disk : Disk) :
    events.foldl diskAfterEvent disk = disk := by
  induction events with
  | nil => rfl
  | cons event rest ih =>
    have same : diskAfterEvent disk event = disk := by
      have muted := mutes event List.mem_cons_self
      cases event with
      | wrote path text => exact muted.elim
      | _ => rfl
    rw [List.foldl_cons, same]
    exact ih fun other member => mutes other (List.mem_cons_of_mem _ member)

end Mutes

theorem Outcome.printed_of_mutes {outcome : Outcome} (mutes : Mutes outcome.transcript) :
    outcome.printed .output = "" := by
  have output : outcome.printed .output = String.join (outputIn outcome.transcript) := rfl
  rw [output, mutes.outputIn_eq_nil]
  rfl

/-- The document of a result is written to the file that the options name, if they do. -/
def saving (o : Options) (result : Result) : List Event :=
  match o.output with
  | none => []
  | some file => [.wrote (.ofString file) (Report.document result)]

/-- Among the events, the document of a result is saved and printed; in the others, nothing is written
or printed on the output. -/
def Documents (o : Options) (result : Result) (events : List Event) : Prop :=
  ∃ before after, events = before ++ (saving o result ++
      .printed .output (Report.document result ++ "\n") :: after) ∧ Mutes before ∧ Mutes after

theorem outputIn_saving (result : Result) : outputIn (saving o result) = [] := by
  unfold saving
  split <;> rfl

namespace Documents

variable {result : Result} {events more : List Event}

theorem prepend (mutes : Mutes more) (documents : Documents o result events) :
    Documents o result (more ++ events) := by
  obtain ⟨before, after, rfl, mutesBefore, mutesAfter⟩ := documents
  exact ⟨more ++ before, after, (List.append_assoc _ _ _).symm, mutes.append mutesBefore,
    mutesAfter⟩

theorem append (documents : Documents o result events) (mutes : Mutes more) :
    Documents o result (events ++ more) := by
  obtain ⟨before, after, rfl, mutesBefore, mutesAfter⟩ := documents
  exact ⟨before, after ++ more, by simp only [List.append_assoc, List.cons_append], mutesBefore,
    mutesAfter.append mutes⟩

theorem outputIn_eq (documents : Documents o result events) :
    outputIn events = [Report.document result ++ "\n"] := by
  obtain ⟨before, after, rfl, mutesBefore, mutesAfter⟩ := documents
  rw [outputIn_append, outputIn_append, mutesBefore.outputIn_eq_nil, outputIn_saving]
  change _ :: outputIn after = _
  rw [mutesAfter.outputIn_eq_nil]

/-- The file that the options name holds the document afterwards. -/
theorem content_eq (documents : Documents o result events) {disk written : Disk} {file : String}
    (named : o.output = some file)
    (wrote : disk.write (.ofString file) (Report.document result) = .ok written) :
    (events.foldl diskAfterEvent disk).content (.ofString file) =
      .ok (.text (Report.document result)) := by
  obtain ⟨before, after, rfl, mutesBefore, mutesAfter⟩ := documents
  have saves : (saving o result).foldl diskAfterEvent disk = written := by
    simp [saving, named, diskAfterEvent, wrote, Except.toOption]
  rw [List.foldl_append, List.foldl_append, mutesBefore.foldl_diskAfterEvent, saves,
    List.foldl_cons]
  change (after.foldl diskAfterEvent written).content _ = _
  rw [mutesAfter.foldl_diskAfterEvent]
  exact Disk.content_of_write wrote

end Documents

/-- The document of a result that is ready is saved and printed, or no result is ready and nothing is
written or printed on the output. -/
def Prints (ready : Result → Prop) (o : Options) (events : List Event) : Prop :=
  (∃ result, ready result ∧ Documents o result events) ∨
    Mutes events ∧ ∀ result, ¬ ready result

namespace Prints

variable {ready : Result → Prop} {events more : List Event}

theorem prepend (mutes : Mutes more) (prints : Prints ready o events) :
    Prints ready o (more ++ events) :=
  prints.imp (fun ⟨result, holds, documents⟩ => ⟨result, holds, documents.prepend mutes⟩)
    fun silent => ⟨mutes.append silent.1, silent.2⟩

theorem append (prints : Prints ready o events) (mutes : Mutes more) :
    Prints ready o (events ++ more) :=
  prints.imp (fun ⟨result, holds, documents⟩ => ⟨result, holds, documents.append mutes⟩)
    fun silent => ⟨silent.1.append mutes, silent.2⟩

end Prints

/-- The document of a result can be written to the file that the options name, if they do. -/
def Saves (disk : Disk) (o : Options) (result : Result) : Prop :=
  ∀ file, o.output = some file →
    ∃ written, disk.write (.ofString file) (Report.document result) = .ok written

end

section

variable [Platform] {world : World} {o : Options} {project : Path}

/-- An audit of the project comes to a result, and its document can be saved. -/
def Concludes (disk : Disk) (o : Options) (project : Path) (result : Result) : Prop :=
  ∃ settings analyzer statistics, Settings.load disk project = .ok settings ∧
    analyzerOf disk.view o settings project = .ok analyzer ∧
    analyzer.analyze disk.view = .ok (result, statistics) ∧ Saves disk o result

/-- The path of a project's settings can be laid out where it is told. -/
def ShowsSettings (disk : Disk) (o : Options) (project : Path) : Prop :=
  ∀ settings, Settings.load disk project = .ok settings → o.verbose → settings.members ≠ [] →
    ∃ text, Terminal.page consoleWidth s!"[dim]Using config:[/] {Settings.pathIn project}" =
      .ok text

/-- A run comes to a result: the arguments lead to a project, and its audit goes through until the
document is saved. -/
def Completes (disk : Disk) (o : Options) (result : Result) : Prop :=
  ∃ project, Prepared disk o project ∧ Concludes disk o project result

/-- The path of the settings can be laid out where a run tells it. It is read as markup, in which some
tags are refused. -/
def SettingsShown (disk : Disk) (o : Options) : Prop :=
  ∀ project, disk.realPath (projectPath o) = .ok project → ShowsSettings disk o project

theorem exists_page_settings {path : Path} (plain : '[' ∉ path.toText.toList) :
    ∃ text, Terminal.page consoleWidth s!"[dim]Using config:[/] {path}" = .ok text :=
  Terminal.exists_page_of_styled [] "dim".toList "Using config:".toList
    (' ' :: path.toText.toList) (by simp [toString]) (Terminal.opensStyle_own (by decide))
    (by decide) (by decide) (by simpa using plain) consoleWidth

theorem exists_page_saved {path : Path} (plain : '[' ∉ path.toText.toList) :
    ∃ text, Terminal.page consoleWidth s!"\n[green]Results saved to:[/] {path}" = .ok text :=
  Terminal.exists_page_of_styled ['\n'] "green".toList "Results saved to:".toList
    (' ' :: path.toText.toList) (by simp [toString]) (Terminal.opensStyle_own (by decide))
    (by decide) (by decide) (by simpa using plain) consoleWidth

/-- A path without brackets can be laid out. -/
theorem settingsShown_of_plain {disk : Disk}
    (plain : ∀ project, disk.realPath (projectPath o) = .ok project →
      ∀ name ∈ project.names, '[' ∉ name.toList) : SettingsShown disk o := by
  intro project resolved settings _ _ _
  have plainPath : '[' ∉ (Settings.pathIn project).toText.toList := by
    refine Path.not_mem_toText (by decide) fun name member => ?_
    rcases List.mem_append.mp member with inProject | last
    · exact plain project resolved name inProject
    · rw [List.mem_singleton.mp last]
      decide
  exact exists_page_settings plainPath

section

variable {ready : Result → Prop} {β : Type} {c : Conversation β} {console : Console}
  {markup : String} {p : Prop} [Decidable p]

/-- A line that may be said first, on the other stream. -/
theorem prints_after_say (apart : console.stream = .error)
    (refused : p → ∀ fault, Terminal.page console.width markup = .error fault →
      ∀ result, ¬ ready result)
    (rest : (p → ∃ text, Terminal.page console.width markup = .ok text) →
      Meets c fun events _ => Prints ready o events) :
    Meets (if p then say console markup >>= fun _ => c else c) fun events _ =>
      Prints ready o events := by
  split
  next told =>
    refine .say_bind_cases (fun fault laid => .inr ⟨.nil, refused told fault laid⟩)
      fun text laid => ?_
    refine (rest fun _ => ⟨text, laid⟩).mono fun more _ prints => ?_
    have mutes : Mutes [.printed console.stream text] := .singleton (by rw [apart]; trivial)
    exact prints.prepend mutes
  next untold => exact rest fun told => absurd told untold

end

omit [Platform] in
/-- A document that cannot be saved leaves nothing written. -/
theorem meets_save {disk : Disk} {result : Result} :
    Meets (save disk o result) fun events ending =>
      (∀ written, ending = .ok written → events = saving o result ∧ Saves disk o result) ∧
        ∀ stop, ending = .error stop → events = [] ∧ ¬ Saves disk o result ∧
          ∃ refusal, stop = .failed (.access refusal) := by
  unfold save
  split
  next unnamed =>
    have saves : Saves disk o result := fun file named => by cases unnamed.symm.trans named
    exact .of_pure ⟨fun _ _ => ⟨by rw [saving, unnamed], saves⟩, by simp⟩
  next file named =>
    rw [Report.ofList_strokes]
    refine .ofExcept_bind_cases (fun refusal refused => ⟨by simp, fun stop same => ⟨rfl, ?_, ?_⟩⟩)
      fun written wrote => .note_bind rfl (.of_pure ⟨fun _ _ => ⟨by rw [saving, named], ?_⟩, by simp⟩)
    · intro saves
      obtain ⟨written, wrote⟩ := saves file named
      cases refused.symm.trans wrote
    · exact ⟨refusal, (Except.error.inj same).symm⟩
    · intro other named'
      cases named.symm.trans named'
      exact ⟨written, wrote⟩

/-- An audit in which the document is asked for prints it as soon as it is saved. -/
theorem meets_audit (json : o.json = true) :
    Meets (audit world o project) fun events _ =>
      Prints (fun result => Concludes world.disk o project result ∧
        ShowsSettings world.disk o project) o events := by
  have status : statusConsole o = console .error := by rw [statusConsole, if_pos json]
  have failed : ∀ failure, AnyEnding (.failed failure) := fun _ => trivial
  unfold audit
  -- The steps of an audit are those that a result needs: where one fails, no result is ready.
  refine .ofExcept_bind_cases (fun failure refused => .inr ⟨.nil, ?_⟩) fun settings loaded => ?_
  · rintro result ⟨⟨settings, _, _, loaded, -⟩, -⟩
    cases refused.symm.trans loaded
  dsimp only
  refine prints_after_say (by rw [status]; rfl) ?_ fun told => ?_
  · rintro ⟨verbose, nonempty⟩ fault refused result ⟨-, shown⟩
    obtain ⟨text, laid⟩ := shown settings loaded verbose nonempty
    rw [status] at refused
    cases refused.symm.trans laid
  have shown : ShowsSettings world.disk o project := by
    intro settings' loaded' verbose nonempty
    cases loaded.symm.trans loaded'
    rw [status] at told
    exact told ⟨verbose, nonempty⟩
  refine .ofExcept_bind_cases (fun failure refused => .inr ⟨.nil, ?_⟩) fun analyzer made => ?_
  · rintro result ⟨⟨settings', analyzer, _, loaded', made, -⟩, -⟩
    cases loaded.symm.trans loaded'
    cases refused.symm.trans made
  have opens : ∀ paths : List Path, Stays Muted (fun _ => False) (paths.forM (note <| .opened ·)) :=
    fun paths => .of_forM_note (fun _ => rfl) (fun _ => trivial) paths
  refine Meets.bind (opens _) (fun _ _ opened => (opened.2 _ rfl).elim) fun opened _ mutes => ?_
  suffices rest : Meets _ fun more _ => Prints _ o more from
    rest.mono fun more _ prints => prints.prepend mutes.1
  refine .ofExcept_bind_cases (fun failure refused => .inr ⟨.nil, ?_⟩) fun answer analyzed => ?_
  · rintro result ⟨⟨settings', analyzer', statistics, loaded', made', analyzed, -⟩, -⟩
    cases loaded.symm.trans loaded'
    cases made.symm.trans made'
    cases refused.symm.trans analyzed
  obtain ⟨result, statistics⟩ := answer
  refine meets_save.bind (fun events stop saved => .inr ?_) fun events written saved => ?_
  · obtain ⟨rfl, unsaved, -⟩ := saved.2 stop rfl
    refine ⟨.nil, ?_⟩
    rintro result' ⟨⟨settings', analyzer', statistics', loaded', made', analyzed', saves⟩, -⟩
    cases loaded.symm.trans loaded'
    cases made.symm.trans made'
    cases analyzed.symm.trans analyzed'
    exact unsaved saves
  obtain ⟨rfl, saves⟩ := saved.1 written rfl
  have concludes : Concludes world.disk o project result :=
    ⟨settings, analyzer, statistics, loaded, made, analyzed, saves⟩
  rw [present, if_pos json]
  refine .note_bind rfl ?_
  have offers : Stays Muted AnyEnding (offerRemoval world written o settings project result.unused) :=
    stays_offerRemoval failed (fun text => by rw [status]; trivial) (fun _ => trivial)
      (fun _ _ => trivial) trivial
  refine Meets.mono (offers.bind fun left => .of_pure _) fun after _ mutesAfter => .inl ?_
  exact ⟨result, ⟨concludes, shown⟩, [], after, rfl, .nil, mutesAfter.1⟩

/-- The path of the project is found exactly where the arguments are in order, and nothing is printed
on the output before that. -/
theorem prepares (one : o.positional.length ≤ 1) :
    Meets (prepare world o) fun events ending => Mutes events ∧
      (∀ project, ending = .ok project → Prepared world.disk o project) ∧
        ∀ stop, ending = .error stop → ∀ project, ¬ Prepared world.disk o project := by
  refine (preparesTo_prepare world o).mono fun events ending prepares => ?_
  cases prepares with
  | ready prepared => exact ⟨.nil, fun project same => Except.ok.inj same ▸ prepared, by simp⟩
  | nulCharacter nul => exact ⟨.nil, by simp, fun _ _ _ prepared => prepared.noNul nul⟩
  | tooMany more => exact absurd more (Nat.not_lt.mpr one)
  | linkLoop loop =>
    refine ⟨.nil, by simp, fun _ _ project prepared => ?_⟩
    cases loop.symm.trans prepared.resolved
  | unknownManager named unknown _ =>
    refine ⟨.singleton trivial, by simp, fun _ _ project prepared => ?_⟩
    have isSome := prepared.known _ named
    rw [unknown] at isSome
    cases isSome

/-- A run comes to a result of which it can print the document. -/
def Ready (disk : Disk) (o : Options) (result : Result) : Prop :=
  Completes disk o result ∧ SettingsShown disk o

theorem ready_iff_of_prepared {disk : Disk} {result : Result}
    (prepared : Prepared disk o project) :
    Ready disk o result ↔ Concludes disk o project result ∧ ShowsSettings disk o project := by
  constructor
  · rintro ⟨⟨project', prepared', concludes⟩, shown⟩
    cases prepared.resolved.symm.trans prepared'.resolved
    exact ⟨concludes, shown project prepared.resolved⟩
  · rintro ⟨concludes, shown⟩
    refine ⟨⟨project, prepared, concludes⟩, fun project' resolved => ?_⟩
    cases prepared.resolved.symm.trans resolved
    exact shown

theorem prints_perform (json : o.json = true) (noRequest : o.requests = [])
    (one : o.positional.length ≤ 1) :
    Meets (perform world o) fun events _ => Prints (Ready world.disk o) o events := by
  rw [perform_of_noRequest world noRequest]
  refine (prepares one).bind (fun events stop holds => .inr ⟨holds.1, ?_⟩)
    fun events project holds => ?_
  · rintro result ⟨⟨project, prepared, -⟩, -⟩
    exact holds.2.2 stop rfl project prepared
  · have prepared := holds.2.1 project rfl
    refine (meets_audit json).mono fun more _ prints => Prints.prepend holds.1 ?_
    rwa [show Ready world.disk o = _ from funext fun _ => propext (ready_iff_of_prepared prepared)]

/-- What is caught is reported on the other stream. -/
theorem prints_performReporting (world : World) (json : o.json = true)
    (noRequest : o.requests = []) (one : o.positional.length ≤ 1) :
    Meets (performReporting world o) fun events _ => Prints (Ready world.disk o) o events := by
  have reports : ∀ failure, Stays Muted AnyEnding (report failure) := fun failure =>
    (Stays.of_say (fun _ => trivial) (fun _ => trivial) _).bind fun _ => .of_pure 1
  refine Meets.tryCatch (prints_perform json noRequest one) (fun _ _ prints => prints) ?_
  intro events stop prints
  have append : ∀ {c : Conversation Nat}, Stays Muted AnyEnding c →
      Meets c fun more _ => Prints (Ready world.disk o) o (events ++ more) :=
    fun stays => Meets.mono stays fun more _ mutes => prints.append mutes.1
  split
  · split
    · exact append (reports _)
    · exact append (.of_throw trivial)
  · exact append (.of_throw trivial)

theorem prints_run (world : World) {arguments : List String} (read : Options.read? arguments = some o)
    (json : o.json = true) (noRequest : o.requests = []) (one : o.positional.length ≤ 1) :
    Prints (Ready world.disk o) o (run world arguments).transcript := by
  rw [run_eq_conclude read]
  obtain ⟨events, grown, -, prints⟩ :=
    prints_performReporting world json noRequest one ⟨linesOf world.input, []⟩
  rw [List.nil_append] at grown
  unfold conclude
  split
  · rwa [grown]
  · rwa [grown]
  · rw [grown]
    exact prints.append (.singleton trivial)
  · rwa [grown]

/-- A run comes to one result. -/
theorem result_eq_of_completes {disk : Disk} {result other : Result}
    (completes : Completes disk o result) (completes' : Completes disk o other) : result = other := by
  obtain ⟨_, prepared, settings, analyzer, _, loaded, made, analyzed, -⟩ := completes
  obtain ⟨_, prepared', _, _, _, loaded', made', analyzed', -⟩ := completes'
  cases prepared.resolved.symm.trans prepared'.resolved
  cases loaded.symm.trans loaded'
  cases made.symm.trans made'
  cases analyzed.symm.trans analyzed'
  rfl

omit [Platform] in
theorem printed_conclude (status : Nat) (left : List String) (stream : Stream) (text : String) :
    (conclude (.ok status) ⟨left, [.printed stream text]⟩).printed stream = text := by
  simp [conclude, Outcome.printed, String.join_cons]

omit [Platform] in
theorem head?_document (result : Result) :
    (Report.document result ++ "\n").toList.head? = some '\x7b' := by
  rw [String.toList_append, Report.document, String.toList_ofList]
  rfl

omit [Platform] in
/-- A text that starts otherwise is no document, nor is it empty. -/
theorem ne_document_of_head {text : String} {c : Char} (head : text.toList.head? = some c)
    (other : c ≠ '\x7b') : text ≠ "" ∧ ∀ result, text ≠ Report.document result ++ "\n" := by
  constructor
  · rintro rfl
    cases head
  · rintro result rfl
    exact other (Option.some.inj (head.symm.trans (head?_document result)))

omit [Platform] in
theorem document_append_ne_empty (result : Result) : Report.document result ++ "\n" ≠ "" := by
  intro same
  have first := head?_document result
  rw [same] at first
  cases first

/-- What stands on the output after a run in which the document is asked for. -/
structure DocumentAlone (disk : Disk) (o : Options) (outcome : Outcome) : Prop where
  empty_or_document : outcome.printed .output = "" ∨ ∃ result, Completes disk o result ∧
    outcome.printed .output = Report.document result ++ "\n"
  /-- The document is there exactly where the run comes to a result, unless the path of the settings
  is to be told and is refused as markup. -/
  document_iff : (∃ result, outcome.printed .output = Report.document result ++ "\n") ↔
    (∃ result, Completes disk o result) ∧ SettingsShown disk o
  document_eq : ∀ result, Completes disk o result → SettingsShown disk o →
    outcome.printed .output = Report.document result ++ "\n"
  /-- With the document on the output, the file that is named holds it too, less the line end. -/
  saved : outcome.printed .output ≠ "" → ∀ file, o.output = some file → ∃ text,
    (outcome.diskAfter disk).content (.ofString file) = .ok (.text text) ∧
      text ++ "\n" = outcome.printed .output

/-- A run in which the document is asked for prints it alone on the output, or nothing. -/
theorem document_alone (world : World) {arguments : List String} {o : Options}
    (read : Options.read? arguments = some o) (json : o.json = true) (noRequest : o.requests = [])
    (one : o.positional.length ≤ 1) : DocumentAlone world.disk o (run world arguments) := by
  have output : (run world arguments).printed .output =
      String.join (outputIn (run world arguments).transcript) := rfl
  rcases prints_run world read json noRequest one with
    ⟨result, ⟨completes, shown⟩, documents⟩ | ⟨mutes, unready⟩
  · have printed : (run world arguments).printed .output = Report.document result ++ "\n" := by
      rw [output, documents.outputIn_eq, String.join_cons, String.join_nil, String.append_empty]
    constructor
    case empty_or_document => exact .inr ⟨result, completes, printed⟩
    case document_iff => exact ⟨fun _ => ⟨⟨result, completes⟩, shown⟩, fun _ => ⟨result, printed⟩⟩
    case document_eq =>
      intro other completes' _
      rw [result_eq_of_completes completes' completes, printed]
    case saved =>
      intro _ file named
      obtain ⟨_, -, _, _, _, -, -, -, saves⟩ := completes
      obtain ⟨written, wrote⟩ := saves file named
      exact ⟨_, documents.content_eq named wrote, printed.symm⟩
  · have printed := Outcome.printed_of_mutes mutes
    have neither : ¬ ((∃ result, Completes world.disk o result) ∧ SettingsShown world.disk o) :=
      fun ⟨⟨result, completes⟩, shown⟩ => unready result ⟨completes, shown⟩
    constructor
    case empty_or_document => exact .inl printed
    case document_iff =>
      refine ⟨fun ⟨result, same⟩ => ?_, fun holds => (neither holds).elim⟩
      exact (document_append_ne_empty result (same.symm.trans printed)).elim
    case document_eq => exact fun result completes shown => (neither ⟨⟨result, completes⟩, shown⟩).elim
    case saved => exact fun prints => (prints printed).elim

end

attribute [local instance] Platform.standard

/-- A disk with a project that declares two packages and uses one of them. -/
def auditedDisk : Disk :=
  ⟨[(["work", "app", "package.json"],
      .file (.text "\x7b\"dependencies\": \x7b\"react\": \"18\", \"left-pad\": \"1\"\x7d\x7d")),
    (["work", "app", ".depcheck-lite.json"], .file (.text "\x7b\"dirs\": [\"src\"]\x7d")),
    (["work", "app", "src", "a.js"], .file (.text "import 'left-pad'"))], ["work", "app"]⟩

def auditedOptions : Options :=
  { Options.empty with
    json := true, verbose := true, output := some "out.json", outputFirst := true }

theorem exists_write_auditedDisk (text : String) :
    ∃ written, auditedDisk.write (.ofString "out.json") text = .ok written := by
  have names : (Path.ofString "out.json").names = ["out.json"] := by decide +kernel
  have start : Disk.origin auditedDisk.here (.ofString "out.json") = ["work", "app"] := by
    decide +kernel
  have leads : auditedDisk.follow true linkLimit
      (Disk.origin auditedDisk.here (.ofString "out.json")) (Path.ofString "out.json").names =
      .ok ["work", "app", "out.json"] := by
    rw [names, start, Disk.follow]
    rfl
  unfold Disk.write
  rw [if_neg (by decide), leads]
  exact ⟨_, rfl⟩

theorem realPath_auditedDisk :
    auditedDisk.realPath (projectPath auditedOptions) = .ok Scan.application := by cbv

/-- The audit of the project comes to a result that can be saved. -/
theorem completes_auditedDisk :
    Completes auditedDisk auditedOptions ⟨["left-pad"], ["react"], 2⟩ := by
  have prepared : Prepared auditedDisk auditedOptions Scan.application :=
    ⟨by decide, realPath_auditedDisk, fun _ named => by cases named⟩
  have loaded : Settings.load auditedDisk Scan.application =
      .ok ⟨[("dirs", .array [.text "src"])]⟩ := by
    rw [Settings.load_of_lookAt (by decide) (by cbv)]
    rfl
  have loads : Analyzer.load auditedDisk.view Scan.application [] ["src"]
      (.none Scan.application) =
      .ok ⟨Scan.application, ["src"], .none Scan.application, ["left-pad", "react"]⟩ := by
    refine Analyzer.load_eq_ok_of_filtered ?_
    rw [Manifest.load_of_lookAt (by decide) (by cbv)]
    decide +kernel
  have source : auditedDisk.node? ["work", "app", "src", "a.js"] =
      some (.file (.text "import 'left-pad'")) := rfl
  have analyzed := Analyzer.analyze_of_onlySource (by cbv) rfl rfl source rfl
    ["left-pad", "react"]
  have concluded : (⟨Scan.application, ["src"], .none Scan.application, ["left-pad", "react"]⟩ :
      Analyzer).conclude ⟨[Scan.onlySource], []⟩
        [Import.references (Content.toText (.text "import 'left-pad'"))] =
      (⟨["left-pad"], ["react"], 2⟩, ⟨1, 1, []⟩) := by decide +kernel
  rw [concluded] at analyzed
  exact ⟨Scan.application, prepared, _, _, _, loaded, loads, analyzed,
    fun _ named => Option.some.inj named ▸ exists_write_auditedDisk _⟩

/-- The settings are told, and the document is printed and saved. -/
theorem document_alone_of_saved :
    let arguments := ["--json", "--verbose", "--output", "out.json"]
    let outcome := run ⟨auditedDisk, "", .recorder 0⟩ arguments
    let document := Report.document ⟨["left-pad"], ["react"], 2⟩
    Options.read? arguments = some auditedOptions ∧ auditedOptions.json = true ∧
      auditedOptions.requests = [] ∧ auditedOptions.positional.length ≤ 1 ∧
      Completes auditedDisk auditedOptions ⟨["left-pad"], ["react"], 2⟩ ∧
      SettingsShown auditedDisk auditedOptions ∧
      outcome.printed .output = document ++ "\n" ∧
      (outcome.diskAfter auditedDisk).content (.ofString "out.json") = .ok (.text document) := by
  intro arguments outcome document
  have read : Options.read? arguments = some auditedOptions := by decide
  have shown : SettingsShown auditedDisk auditedOptions := by
    refine settingsShown_of_plain fun project resolved => ?_
    cases realPath_auditedDisk.symm.trans resolved
    decide
  have alone := document_alone ⟨auditedDisk, "", .recorder 0⟩ read rfl rfl (Nat.zero_le 1)
  have printed := alone.document_eq _ completes_auditedDisk shown
  have nonempty : outcome.printed .output ≠ "" := printed ▸ document_append_ne_empty _
  obtain ⟨text, saved, whole⟩ := alone.saved nonempty _ rfl
  have same : text = document := by
    have chars := congrArg String.toList (whole.trans printed)
    rw [String.toList_append, String.toList_append] at chars
    exact String.toList_injective (List.append_cancel_right chars)
  exact ⟨read, rfl, rfl, Nat.zero_le 1, completes_auditedDisk, shown, printed, same ▸ saved⟩

theorem head?_helpText : Platform.helpText.toList.head? = some 'U' := by
  rw [Platform.helpText, String.toList_intercalate]
  rfl

/-- What stands on the output of a run with these arguments is neither nothing nor a document,
although the document is asked for. -/
def Strays (arguments : List String) : Prop :=
  ∃ o, Options.read? arguments = some o ∧ o.json = true ∧ o.positional.length ≤ 1 ∧
    (run ⟨auditedDisk, "", .recorder 0⟩ arguments).printed .output ≠ "" ∧
    ∀ result, (run ⟨auditedDisk, "", .recorder 0⟩ arguments).printed .output ≠
      Report.document result ++ "\n"

theorem strays_of_help : Strays ["--json", "--help"] := by
  let o : Options := { Options.empty with json := true, requests := [.help] }
  have read : Options.read? ["--json", "--help"] = some o := by decide
  refine ⟨o, read, rfl, Nat.zero_le 1, ?_⟩
  obtain ⟨_, ⟨_, _⟩, answers, ran⟩ := run_of_request ⟨auditedDisk, "", .recorder 0⟩ read rfl
  cases answers
  rw [ran, printed_conclude]
  exact ne_document_of_head head?_helpText (by decide)

theorem strays_of_version : Strays ["--json", "-V"] := by
  let o : Options := { Options.empty with json := true, requests := [.version] }
  have read : Options.read? ["--json", "-V"] = some o := by decide
  refine ⟨o, read, rfl, Nat.zero_le 1, ?_⟩
  obtain ⟨_, ⟨_, _⟩, answers, ran⟩ := run_of_request ⟨auditedDisk, "", .recorder 0⟩ read rfl
  cases answers with | version laid =>
  have line : Terminal.page consoleWidth versionLine = .ok (versionLine ++ "\n") := by
    decide +kernel
  cases line.symm.trans laid
  rw [ran, printed_conclude]
  exact ne_document_of_head (c := 'd') (by decide +kernel) (by decide)

/-- A disk with a project whose path reads, as markup, as a closing tag. -/
def taggedDisk : Disk :=
  ⟨[(["work", "app", "[", "x]", "package.json"], .file (.text "\x7b\x7d")),
    (["work", "app", "[", "x]", ".depcheck-lite.json"], .file (.text "\x7b\"dirs\": [\"src\"]\x7d"))],
    ["work", "app"]⟩

def taggedProject : Path := ⟨.root, ["work", "app", "[", "x]"]⟩

def taggedOptions (verbose : Bool) : Options :=
  { Options.empty with json := true, verbose := verbose, positional := ["[/x]"] }

theorem realPath_taggedDisk (verbose : Bool) :
    taggedDisk.realPath (projectPath (taggedOptions verbose)) = .ok taggedProject := by cbv

theorem load_taggedDisk :
    Settings.load taggedDisk taggedProject = .ok ⟨[("dirs", .array [.text "src"])]⟩ := by
  rw [Settings.load_of_lookAt (by decide) (by cbv)]
  rfl

theorem analyze_taggedDisk (verbose : Bool) :
    ∃ analyzer, analyzerOf taggedDisk.view (taggedOptions verbose)
        ⟨[("dirs", .array [.text "src"])]⟩ taggedProject = .ok analyzer ∧
      analyzer.analyze taggedDisk.view = .ok (⟨[], [], 0⟩, ⟨0, 0, []⟩) := by
  have loads : Analyzer.load taggedDisk.view taggedProject [] ["src"] (.none taggedProject) =
      .ok ⟨taggedProject, ["src"], .none taggedProject, []⟩ := by
    refine Analyzer.load_eq_ok_of_filtered ?_
    rw [Manifest.load_of_lookAt (by decide) (by cbv)]
    decide +kernel
  refine ⟨_, loads, ?_⟩
  have leads : taggedDisk.locate taggedProject = .ok taggedProject.names := by cbv
  have absent : taggedDisk.isDirectory (taggedProject.child "src") = .ok false :=
    Disk.holds_of_absent leads rfl (by decide) (by decide) rfl (by decide) (by decide) _
  exact Analyzer.analyze_of_absent "src" absent []

theorem completes_taggedDisk (verbose : Bool) :
    Completes taggedDisk (taggedOptions verbose) ⟨[], [], 0⟩ := by
  have clean : ¬ (Disk.hasNul (.ofString "[/x]") ∨ "".toList.contains '\x00') := by decide
  obtain ⟨analyzer, made, analyzed⟩ := analyze_taggedDisk verbose
  have prepared : Prepared taggedDisk (taggedOptions verbose) taggedProject :=
    ⟨clean, realPath_taggedDisk verbose, fun _ named => by cases named⟩
  have saves : Saves taggedDisk (taggedOptions verbose) ⟨[], [], 0⟩ := fun _ named => by cases named
  exact ⟨taggedProject, prepared, _, analyzer, _, load_taggedDisk, made, analyzed, saves⟩

/-- The path of the settings is refused there. -/
theorem not_settingsShown_taggedDisk : ¬ SettingsShown taggedDisk (taggedOptions true) := by
  intro shown
  obtain ⟨text, laid⟩ := shown taggedProject (realPath_taggedDisk true) _ load_taggedDisk rfl
    (List.cons_ne_nil _ _)
  have refused : (Terminal.page consoleWidth
      s!"[dim]Using config:[/] {Settings.pathIn taggedProject}").isOk = false := by decide +kernel
  rw [laid] at refused
  cases refused

/-- Not all runs print the document alone that are asked for it: some tell their help or their version.
Although a run comes to a result, nothing is printed of it where the path of the settings is told and
reads as a tag that closes nothing. -/
theorem not_document_alone :
    Strays ["--json", "--help"] ∧ Strays ["--json", "-V"] ∧
      Options.read? ["--json", "--verbose", "[/x]"] = some (taggedOptions true) ∧
      ¬ (Completes taggedDisk (taggedOptions true) ⟨[], [], 0⟩ →
        (run ⟨taggedDisk, "", .recorder 0⟩ ["--json", "--verbose", "[/x]"]).printed .output =
          Report.document ⟨[], [], 0⟩ ++ "\n") := by
  have read : Options.read? ["--json", "--verbose", "[/x]"] = some (taggedOptions true) := by
    decide
  refine ⟨strays_of_help, strays_of_version, read, fun prints => ?_⟩
  rcases prints_run ⟨taggedDisk, "", .recorder 0⟩ read rfl rfl (Nat.le_refl 1) with
    ⟨result, ready, -⟩ | ⟨mutes, -⟩
  · exact not_settingsShown_taggedDisk ready.2
  · have printed := prints (completes_taggedDisk true)
    rw [Outcome.printed_of_mutes mutes] at printed
    exact document_append_ne_empty _ printed.symm

end DependencyAudit.CommandLine

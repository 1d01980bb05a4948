import DependencyAudit.Proofs.CommandLine.Output
import DependencyAudit.Proofs.Conversation.Exact

namespace DependencyAudit.CommandLine

open Conversation FileSystem

/-- Whatever the input is and whatever has been done before, the conversation reads nothing, does this
and comes to this end. -/
def Does {α : Type} (c : Conversation α) (events : List Event) (ending : Except Ending α) : Prop :=
  ∀ desk, c.run desk = (ending, ⟨desk.answers, desk.transcript ++ events⟩)

section

variable {α β : Type} {c : Conversation α} {f : α → Conversation β} {events more : List Event}

theorem Does.bind {a : α} {ending : Except Ending β} (first : Does c events (.ok a))
    (next : Does (f a) more ending) : Does (c >>= f) (events ++ more) ending := by
  intro desk
  rw [run_bind, first desk]
  exact (next _).trans (by rw [List.append_assoc])

theorem Does.bind_of_error {stop : Ending} (first : Does c events (.error stop)) :
    Does (c >>= f) events (.error stop) := by
  intro desk
  rw [run_bind, first desk]

/-- A text cannot be printed, or the document cannot be written. -/
def IsUntold (failure : Failure) : Prop := IsMute failure ∨ ∃ refusal, failure = .access refusal

theorem IsUntold.isReported_eq_false {failure : Failure} (untold : IsUntold failure) :
    failure.isReported = false := by
  rcases untold with mute | ⟨refusal, rfl⟩
  · cases failure <;> first | rfl | exact mute.elim
  · rfl

/-- Without reading anything, the conversation returns the value if this is the case. If it is not,
something that cannot be told ends it. -/
def ReturnsIf (c : Conversation α) (p : Prop) (a : α) : Prop :=
  ∃ events ending, Does c events ending ∧
    (p ∧ ending = .ok a ∨ ¬ p ∧ ∃ failure, IsUntold failure ∧ ending = .error (.failed failure))

namespace ReturnsIf

variable {p q : Prop} {a : α} {b : β}

theorem congr (returns : ReturnsIf c p a) (same : p ↔ q) : ReturnsIf c q a := by rwa [← same]

theorem of_pure (a : α) : ReturnsIf (pure a : Conversation α) True a :=
  ⟨[], .ok a, fun desk => by rw [List.append_nil]; rfl, .inl ⟨trivial, rfl⟩⟩

theorem of_note (event : Event) : ReturnsIf (note event) True () :=
  ⟨[event], .ok (), fun _ => rfl, .inl ⟨trivial, rfl⟩⟩

theorem of_ok {ε : Type} {toFailure : ε → Failure} {x : Except ε α} (fine : x = .ok a) :
    ReturnsIf (ofExcept toFailure x) True a := by
  rw [fine]
  exact of_pure a

theorem of_error {ε : Type} {toFailure : ε → Failure} {e : ε} (untold : IsUntold (toFailure e))
    (b : β) : ReturnsIf (ofExcept toFailure (.error e) >>= f) False b := by
  refine ⟨[], .error (.failed (toFailure e)), fun desk => ?_, .inr ⟨id, _, untold, rfl⟩⟩
  rw [ofExcept_error_bind, List.append_nil]
  rfl

/-- What a computation comes to is told. -/
theorem of_ofExcept {ε : Type} {toFailure : ε → Failure} {x : Except ε α} {event : α → Event}
    (mute : ∀ e, x = .error e → IsMute (toFailure e)) :
    ReturnsIf (ofExcept toFailure x >>= fun a => note (event a)) (∃ a, x = .ok a) () := by
  cases x with
  | ok a => exact (of_note (event a)).congr (iff_of_true trivial ⟨a, rfl⟩)
  | error e => exact (of_error (.inl (mute e rfl)) ()).congr (by simp)

theorem bind (first : ReturnsIf c p a) (next : ReturnsIf (f a) q b) :
    ReturnsIf (c >>= f) (p ∧ q) b := by
  obtain ⟨events, ending, does, ⟨holds, rfl⟩ | ⟨fails, failure, mute, rfl⟩⟩ := first
  · obtain ⟨more, ending, does', ends⟩ := next
    refine ⟨events ++ more, ending, does.bind does', ?_⟩
    simpa only [holds, true_and] using ends
  · exact ⟨events, _, does.bind_of_error, .inr ⟨fun both => fails both.1, failure, mute, rfl⟩⟩

theorem after (first : ReturnsIf c True a) (next : ReturnsIf (f a) q b) :
    ReturnsIf (c >>= f) q b := (first.bind next).congr (iff_of_eq (true_and q))

theorem before (first : ReturnsIf c p a) (next : ReturnsIf (f a) True b) :
    ReturnsIf (c >>= f) p b := (first.bind next).congr (iff_of_eq (and_true p))

/-- A disk that is written is told, too. -/
theorem of_access {x : Except Refusal Disk} {disk : Disk} {event : Event}
    (after : ∀ written, x = .ok written → disk = written) :
    ReturnsIf (do
      let written ← ofExcept .access x
      note event
      return written) (∃ written, x = .ok written) disk := by
  cases x with
  | ok written =>
    obtain rfl := after written rfl
    have notes : ReturnsIf (note event >>= fun _ => pure disk) True disk :=
      (of_note event).before (of_pure disk)
    exact notes.congr (iff_of_true trivial ⟨disk, rfl⟩)
  | error refusal => exact (of_error (.inr ⟨refusal, rfl⟩) disk).congr (by simp)

/-- A first part that may be left out. -/
theorem after_ite {r : Prop} [Decidable r] {said : Conversation Unit} {c : Conversation β}
    (first : ReturnsIf said p ()) (rest : ReturnsIf c q b) :
    ReturnsIf (if r then said >>= fun _ => c else c) ((r → p) ∧ q) b := by
  split
  next told => exact (first.bind rest).congr (by simp [told])
  next untold => exact rest.congr (by simp [untold])

theorem of_forM {γ : Type} {items : List γ} {g : γ → Conversation Unit} {p : γ → Prop}
    (each : ∀ item, ReturnsIf (g item) (p item) ()) :
    ReturnsIf (items.forM g) (∀ item ∈ items, p item) () := by
  induction items with
  | nil => exact (of_pure ()).congr (by simp)
  | cons first rest ih => exact ((each first).bind ih).congr List.forall_mem_cons.symm

theorem of_tell [Platform] (console : Console) (markup : List Text.Point) :
    ReturnsIf (tell console markup) (∃ text, paged console markup = .ok text) () :=
  of_ofExcept fun _ refused => isMute_of_paged refused

theorem of_say [Platform] (console : Console) (markup : String) :
    ReturnsIf (say console markup) (∃ text, Terminal.page console.width markup = .ok text) () :=
  of_ofExcept fun _ _ => trivial

end ReturnsIf

end

/-- What an audit knows when it comes to offer removals. -/
structure Findings where
  settings : Settings
  /-- The disk with the document on it, if this is saved. -/
  disk : Disk
  result : Result

variable [Platform]

/-- What an audit does before it offers removals. -/
def survey (disk : Disk) (o : Options) (project : Path) : Conversation Findings := do
  let settings ← ofExcept id (Settings.load disk project)
  if o.verbose ∧ settings.members ≠ [] then
    say (statusConsole o) s!"[dim]Using config:[/] {Settings.pathIn project}"
  let analyzer ← ofExcept id (analyzerOf disk.view o settings project)
  (Analyzer.filesRead disk.view (analyzer.scan disk.view).found.files).forM fun path =>
    note (.opened path)
  let (result, statistics) ← ofExcept id (analyzer.analyze disk.view)
  let written ← save disk o result
  present o result statistics
  return ⟨settings, written, result⟩

variable {o : Options} {project : Path}

theorem audit_eq_survey (world : World) (o : Options) (project : Path) :
    audit world o project = (do
      let findings ← survey world.disk o project
      let left ← offerRemoval world findings.disk o findings.settings project
        findings.result.unused
      return if left = [] then 0 else 1) := by
  unfold audit survey
  rw [bind_assoc]
  refine congrArg (_ >>= ·) (funext fun settings => ?_)
  dsimp only
  split
  all_goals simp only [bind_assoc, pure_bind]

theorem silent_survey (disk : Disk) (o : Options) (project : Path) :
    Silent (survey disk o project) := by
  unfold survey
  refine (silent_ofExcept _ _).bind fun settings => ?_
  dsimp only
  split
  on_goal 1 => refine (silent_say _ _).bind fun _ => ?_
  -- Whether the settings are announced or not, the rest is the same.
  all_goals
    refine (silent_ofExcept _ _).bind fun analyzer => ?_
    refine (silent_forM (fun path => silent_note ⟨rfl, rfl⟩) _).bind fun _ => ?_
    refine (silent_ofExcept _ _).bind fun answer => ?_
    exact silent_save.bind fun _ => silent_present.bind fun _ => silent_pure _

/-- Where only the document is asked for, the source files that are found are opened and the document
is printed. -/
theorem does_survey_of_analyzed {disk : Disk} {settings : Settings} {analyzer : Analyzer}
    {result : Result} {statistics : Statistics} (json : o.json = true) (brief : o.verbose = false)
    (unsaved : o.output = none) (loaded : Settings.load disk project = .ok settings)
    (made : analyzerOf disk.view o settings project = .ok analyzer)
    (analyzed : analyzer.analyze disk.view = .ok (result, statistics)) :
    Does (survey disk o project)
      ((analyzer.scan disk.view).found.files.map .opened ++
        [.printed .output (Report.document result ++ "\n")])
      (.ok ⟨settings, disk, result⟩) := by
  intro desk
  have untold : ¬ (o.verbose ∧ settings.members ≠ []) := by simp [brief]
  have saves : save disk o result = pure disk := by rw [save, unsaved]
  have presents : present o result statistics =
      note (.printed .output (Report.document result ++ "\n")) := by rw [present, if_pos json]
  unfold survey
  rw [loaded]
  change ((if _ then _ else _) : Conversation Findings).run desk = _
  rw [if_neg untold, made]
  change (List.forM _ _ >>= _ : Conversation Findings).run desk = _
  rw [run_bind, run_forM_note, Analyzer.filesRead_of_analyze analyzed, analyzed]
  change (save disk o result >>= _ : Conversation Findings).run _ = _
  rw [saves]
  change (present o result statistics >>= _ : Conversation Findings).run _ = _
  rw [presents, ← List.append_assoc]
  rfl

/-- A result can be printed, with what comes along with it. -/
structure Presentable (o : Options) (result : Result) (statistics : Statistics) : Prop where
  summary : o.json = false → o.verbose →
    ∃ text, Report.summary consoleWidth result statistics = .ok text
  listing : o.json = false → ∀ markup ∈ Report.listing result,
    ∃ text, paged (console .output) markup = .ok text
  saved : o.json = false → ∀ file, o.output = some file → ∃ text,
    Terminal.page consoleWidth s!"\n[green]Results saved to:[/] {Path.ofString file}" = .ok text

theorem returnsIf_present (o : Options) (result : Result) (statistics : Statistics) :
    ReturnsIf (present o result statistics) (Presentable o result statistics) () := by
  have sums : ReturnsIf (ofExcept Failure.markup (Report.summary consoleWidth result statistics) >>=
      fun summary => note (.printed .output summary))
      (∃ text, Report.summary consoleWidth result statistics = .ok text) () :=
    .of_ofExcept fun _ _ => trivial
  have lists : ReturnsIf ((Report.listing result).forM (tell (console .output)))
      (∀ markup ∈ Report.listing result, ∃ text, paged (console .output) markup = .ok text) () :=
    .of_forM fun markup => .of_tell _ markup
  unfold present
  split
  next json =>
    exact (ReturnsIf.of_note _).congr (iff_of_true trivial
      ⟨by simp [json], by simp [json], by simp [json]⟩)
  next noJson =>
  have json : o.json = false := by simpa using noJson
  dsimp only
  rw [← bind_assoc]
  refine ReturnsIf.congr (p := (o.verbose → ∃ text,
      Report.summary consoleWidth result statistics = .ok text) ∧
    (∀ markup ∈ Report.listing result, ∃ text, paged (console .output) markup = .ok text) ∧
    ∀ file, o.output = some file → ∃ text, Terminal.page consoleWidth
      s!"\n[green]Results saved to:[/] {Path.ofString file}" = .ok text)
    (.after_ite sums (lists.bind ?saved)) ⟨fun told => ?_, fun presentable => ?_⟩
  case saved =>
    split
    next unnamed => exact (ReturnsIf.of_pure ()).congr (by simp [unnamed])
    next file named => exact (ReturnsIf.of_say _ _).congr (by simp [named, console])
  · exact ⟨fun _ => told.1, fun _ => told.2.1, fun _ => told.2.2⟩
  · exact ⟨presentable.summary json, presentable.listing json, presentable.saved json⟩

/-- An audit comes to findings. -/
structure Finds (disk : Disk) (o : Options) (project : Path) (findings : Findings)
    (statistics : Statistics) : Prop where
  loaded : Settings.load disk project = .ok findings.settings
  analyzed : ∃ analyzer, analyzerOf disk.view o findings.settings project = .ok analyzer ∧
    analyzer.analyze disk.view = .ok (findings.result, statistics)
  saved : match o.output with
    | none => findings.disk = disk
    | some file => ∀ written, disk.write (.ofString file) (Report.document findings.result) =
        .ok written → findings.disk = written

/-- All that an audit tells before it offers removals can be told: where the settings are, if this is
asked for, and the result, which is saved, too, if it is to be. -/
structure Tellable (disk : Disk) (o : Options) (project : Path) (findings : Findings)
    (statistics : Statistics) : Prop where
  settings : o.verbose ∧ findings.settings.members ≠ [] → ∃ text,
    Terminal.page consoleWidth s!"[dim]Using config:[/] {Settings.pathIn project}" = .ok text
  saves : Saves disk o findings.result
  result : Presentable o findings.result statistics

theorem returnsIf_save {disk : Disk} {findings : Findings} {statistics : Statistics}
    (finds : Finds disk o project findings statistics) :
    ReturnsIf (save disk o findings.result) (Saves disk o findings.result) findings.disk := by
  have saved := finds.saved
  unfold save
  rw [Report.ofList_strokes]
  cases named : o.output with
  | none =>
    rw [named] at saved
    exact saved ▸ (ReturnsIf.of_pure disk).congr
      (iff_of_true trivial fun file same => by cases named.symm.trans same)
  | some file =>
    rw [named] at saved
    refine (ReturnsIf.of_access saved).congr ⟨fun written other same => ?_, fun saves => ?_⟩
    · cases named.symm.trans same
      exact written
    · exact saves file named

/-- An audit gets as far as to offer removals exactly if all can be told that it tells. -/
theorem returnsIf_survey {disk : Disk} {findings : Findings} {statistics : Statistics}
    (finds : Finds disk o project findings statistics) :
    ReturnsIf (survey disk o project) (Tellable disk o project findings statistics) findings := by
  obtain ⟨analyzer, made, analyzed⟩ := finds.analyzed
  have opens (paths : List Path) : ReturnsIf (paths.forM (note <| .opened ·)) True () :=
    (ReturnsIf.of_forM fun path => .of_note (.opened path)).congr (by simp)
  refine ReturnsIf.congr (p := (o.verbose ∧ findings.settings.members ≠ [] → ∃ text,
    Terminal.page consoleWidth s!"[dim]Using config:[/] {Settings.pathIn project}" = .ok text) ∧
      Saves disk o findings.result ∧ Presentable o findings.result statistics) ?_
    ⟨fun told => ⟨told.1, told.2.1, told.2.2⟩, fun told => ⟨told.settings, told.saves, told.result⟩⟩
  refine (ReturnsIf.of_ok finds.loaded).after ?_
  dsimp only
  have width : (statusConsole o).width = consoleWidth := rfl
  refine .after_ite (width ▸ .of_say (statusConsole o) _) ?_
  refine (ReturnsIf.of_ok made).after ((opens _).after ((ReturnsIf.of_ok analyzed).after ?_))
  refine (returnsIf_save finds).bind ?_
  exact (returnsIf_present o findings.result statistics).before (.of_pure findings)

end DependencyAudit.CommandLine

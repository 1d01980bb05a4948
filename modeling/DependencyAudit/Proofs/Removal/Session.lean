import DependencyAudit.Proofs.Conversation.Exact
import DependencyAudit.Proofs.Removal.Dialogue
import DependencyAudit.Proofs.Removal.Shown
import DependencyAudit.Text.Pieces

namespace DependencyAudit.Removal

open Conversation

/-- The first of these lines picks these packages of a list, and the first one after it that says yes
or no says yes. -/
def Warranted (unused : List Name) (lines : List String) (packages : List Name) : Prop :=
  ∃ answer read others selection, lines = answer :: read ++ others ∧
    Selection.parse answer unused.length = .ok selection ∧ selection.indices ≠ [] ∧
    selection.indices.Pairwise (· < ·) ∧ packages.map some = selection.indices.map (unused[·]?) ∧
    Confirmed read

/-- What is printed of the packages, of the manager and of the answer opens no tags, and is no half of
a surrogate pair where such a one is not printed. -/
structure Plain (stream : Stream) (manager : Manager) (unused : List Name) (lines : List String) :
    Prop where
  ofManager : '[' ∉ manager.name.toList
  ofNames : ∀ name ∈ unused, Harmless stream name.points
  ofInvalid : ∀ selection, Selection.parse (lines.head?.getD "") unused.length = .ok selection →
    ∀ token ∈ selection.invalid, '[' ∉ token.toList

/-- How a session ends that has run the program that removes packages. -/
def endOf (manager : Manager) (packages : List Name) (status : Int) : Except Ending Outcome :=
  if status = 0 then .ok ⟨packages, false, some (manager.removalCommand packages)⟩
  else .error (.failed (.removal (.exited manager.name status)))

/-- What a session comes to that goes through to its end. -/
def verdict (manager : Manager) (unused : List Name) (lines : List String) (status : Int) :
    Except Ending Outcome :=
  if unused = [] then .ok ⟨[], false, none⟩
  else
    match Selection.parse (lines.head?.getD "") unused.length with
    | .error number => .error (.failed (.tooLong number))
    | .ok selection =>
      if selection.indices ≠ [] ∧ (lines.tail.findSome? confirmation?).getD false = true then
        endOf manager (selection.pick unused) status
      else .ok ⟨[], true, none⟩

/-- The programs that such a session runs. -/
def callsOf (manager : Manager) (project : Path) (unused : List Name) (lines : List String) :
    List Call :=
  match Selection.parse (lines.head?.getD "") unused.length with
  | .error _ => []
  | .ok selection =>
    if selection.indices ≠ [] ∧ (lines.tail.findSome? confirmation?).getD false = true then
      [⟨manager.removalCommand (selection.pick unused), project⟩]
    else []

/-- The first line that says yes or no says yes exactly if some lines from the first one on confirm a
removal. -/
theorem findSome?_confirmation?_eq_true_iff {lines : List String} :
    lines.findSome? confirmation? = some true ↔ ∃ read others, lines = read ++ others ∧
      Confirmed read := by
  rw [List.findSome?_eq_some_iff]
  constructor
  · rintro ⟨skipped, last, others, rfl, confirms, passed⟩
    exact ⟨skipped ++ [last], others, by simp, skipped, last, rfl,
      fun line member => confirmation?_eq_none_iff.mp (passed line member),
      confirmation?_eq_true_iff.mp confirms⟩
  · rintro ⟨_, others, rfl, skipped, last, rfl, passed, confirms⟩
    exact ⟨skipped, last, others, by simp, confirmation?_eq_true_iff.mpr confirms,
      fun line member => confirmation?_eq_none_iff.mpr (passed line member)⟩

section

variable [Platform] {console : Console} {project : Path} {manager : Manager}
  {unused packages : List Name} {lines : List String} {status : Int}

theorem goes_cancel (console : Console) (lines : List String) :
    Goes (cancel console) lines (.ok ⟨[], true, none⟩) lines [] :=
  (Goes.of_say (exists_page_cancelled console.width) lines).bind (.of_pure _ lines)

/-- Once the command line has been shown, the removal goes through to its end. -/
theorem goesUnless_remove {stuck : Prop} (plainManager : ¬ stuck → '[' ∉ manager.name.toList)
    (plain : ¬ stuck → ∀ name ∈ packages, Harmless console.stream name.points)
    (lines : List String) :
    GoesUnless stuck (remove console (.recorder status) project manager packages) lines
      (endOf manager packages status) [⟨manager.removalCommand packages, project⟩] := by
  refine .after_tell (fun free => exists_paged_running (plainManager free) (plain free)) ?_
  refine .of_goes (?_ : Goes _ _ _ lines _)
  have ran : Goes (ofExcept id (Runner.recorder status (manager.removalCommand packages) project))
      lines (.ok (⟨manager.removalCommand packages, project⟩, status)) lines [] :=
    Goes.of_pure _ lines
  refine ran.bind ((Goes.of_note _ lines).bind (?_ : Goes _ _ _ _ []))
  unfold endOf
  by_cases fine : status = 0
  · rw [if_pos fine, if_neg (not_not.mpr fine)]
    exact (Goes.of_say (exists_page_removed _ _) lines).bind (.of_pure _ lines)
  · rw [if_neg fine, if_pos fine]
    exact (Goes.of_fail _ lines).bind_of_error

/-- What is left of a session once the warnings have been printed. -/
def settle (console : Console) (run : Runner) (project : Path) (manager : Manager)
    (unused : List Name) (selection : Selection) : Conversation Outcome :=
  if selection.indices = [] then cancel console
  else do
    (picked (selection.pick unused)).forM (tell console)
    let proceed ← askUntil console "[bold]Proceed?[/] (y/N): " "Please enter Y or N" false
      confirmation?
    if proceed then remove console run project manager (selection.pick unused) else cancel console

theorem dialogue_eq {run : Runner} (nonempty : unused ≠ []) :
    dialogue console run project manager unused = (do
      (choices unused).forM (tell console)
      let answer ← ask console "[bold]Your choice[/]: "
      let selection ← ofExcept .tooLong (Selection.parse (answer.getD "") unused.length)
      selection.invalid.forM fun token => say console (warning unused.length token)
      settle console run project manager unused selection) := by
  unfold dialogue settle
  rw [if_neg nonempty]

/-- Once the warnings have been printed, what is picked and confirmed decides the rest. -/
theorem goesUnless_settle {stuck : Prop} {selection : Selection}
    (whole : console.reading = .wholeLines) (plainManager : ¬ stuck → '[' ∉ manager.name.toList)
    (plainNames : ¬ stuck → ∀ name ∈ unused, Harmless console.stream name.points)
    (lines : List String) :
    GoesUnless stuck (settle console (.recorder status) project manager unused selection) lines
      (if selection.indices ≠ [] ∧ (lines.findSome? confirmation?).getD false = true then
        endOf manager (selection.pick unused) status
      else .ok ⟨[], true, none⟩)
      (if selection.indices ≠ [] ∧ (lines.findSome? confirmation?).getD false = true then
        [⟨manager.removalCommand (selection.pick unused), project⟩]
      else []) := by
  unfold settle
  by_cases nothing : selection.indices = []
  · simp only [nothing, if_true, ne_eq, not_true_eq_false, false_and, if_false]
    exact .of_goes (goes_cancel console lines)
  have plainPicked : ¬ stuck → ∀ name ∈ selection.pick unused,
      Harmless console.stream name.points := by
    intro free name member
    obtain ⟨n, -, atPlace⟩ := Selection.mem_pick.mp member
    exact plainNames free name (List.mem_of_getElem? atPlace)
  simp only [nothing, if_false, ne_eq, not_false_eq_true, true_and]
  refine .after_forM_tell (fun free markup member => ?_) ?_
  · exact exists_paged_of_mem_picked (plainPicked free) member
  obtain ⟨left, confirms⟩ := Goes.of_askUntil false confirmation? whole
    (exists_inline_proceed _) (exists_page_complaint _) lines
  refine .after_goes confirms ?_
  cases proceed : (lines.findSome? confirmation?).getD false with
  | true =>
    simp only [if_true]
    exact goesUnless_remove plainManager plainPicked left
  | false =>
    simp only [Bool.false_eq_true, if_false]
    exact .of_goes (goes_cancel console left)

/-- A session goes through to its end, unless something that it prints cannot be laid out. -/
theorem goesUnless_dialogue (whole : console.reading = .wholeLines) :
    GoesUnless (¬ Plain console.stream manager unused lines)
      (dialogue console (.recorder status) project manager unused) lines
      (verdict manager unused lines status)
      (if unused = [] then [] else callsOf manager project unused lines) := by
  unfold verdict callsOf
  by_cases empty : unused = []
  · simp only [empty, if_true, dialogue]
    exact .of_goes ((Goes.of_say (exists_page_nothing _) lines).bind (.of_pure _ lines))
  rw [dialogue_eq empty]
  simp only [empty, if_false]
  refine .after_forM_tell (fun free markup member => ?_) ?_
  · exact exists_paged_of_mem_choices (not_not.mp free).ofNames member
  refine .after_goes (Goes.of_ask whole (exists_inline_choice _) lines) ?_
  cases parsed : Selection.parse (lines.head?.getD "") unused.length with
  | error number => exact .of_goes (Goes.of_fail (.tooLong number) lines.tail).bind_of_error
  | ok selection =>
    refine .after_goes (Goes.of_pure selection lines.tail) ?_
    rw [forM_say_eq]
    refine .after_forM_tell (fun free token member => exists_paged_points.mpr ?_) ?_
    · exact exists_page_warning _ ((not_not.mp free).ofInvalid selection parsed token member) _
    exact goesUnless_settle whole (fun free => (not_not.mp free).ofManager)
      (fun free => (not_not.mp free).ofNames) lines.tail

end

section

variable {project : Path} {manager : Manager} {unused packages : List Name} {lines : List String}
  {status : Int}

/-- Which packages are picked and confirmed, in terms of what a session works out. -/
theorem warranted_iff : Warranted unused lines packages ↔
    ∃ selection, Selection.parse (lines.head?.getD "") unused.length = .ok selection ∧
      selection.indices ≠ [] ∧ (lines.tail.findSome? confirmation?).getD false = true ∧
      packages = selection.pick unused := by
  constructor
  · rintro ⟨answer, read, others, selection, rfl, parsed, nonempty, -, same, confirmed⟩
    have assents := findSome?_confirmation?_eq_true_iff.mpr ⟨read, others, rfl, confirmed⟩
    refine ⟨selection, parsed, nonempty, ?_, ?_⟩
    · rw [List.cons_append, List.tail_cons, assents]
      rfl
    · rw [← Selection.map_some_pick parsed] at same
      exact (List.map_inj_right fun _ _ => Option.some.inj).mp same
  · rintro ⟨selection, parsed, nonempty, confirmed, rfl⟩
    obtain ⟨answer, first⟩ := exists_line_of_parse parsed nonempty
    obtain ⟨rest, rfl⟩ := List.head?_eq_some_iff.mp first
    have assents : rest.findSome? confirmation? = some true := by
      cases found : rest.findSome? confirmation? with
      | none => rw [List.tail_cons, found] at confirmed; cases confirmed
      | some value => rw [List.tail_cons, found] at confirmed; exact congrArg _ confirmed
    obtain ⟨read, others, rfl, confirms⟩ := findSome?_confirmation?_eq_true_iff.mp assents
    exact ⟨answer, read, others, selection, rfl, parsed, nonempty,
      Selection.pairwise_indices parsed, Selection.map_some_pick parsed, confirms⟩

/-- A session that goes through to its end runs the program for what is warranted, and no other. -/
theorem mem_callsOf {call : Call} : call ∈ callsOf manager project unused lines ↔
    ∃ packages, Warranted unused lines packages ∧
      call = ⟨manager.removalCommand packages, project⟩ := by
  simp only [warranted_iff, callsOf]
  cases Selection.parse (lines.head?.getD "") unused.length with
  | error number => simp
  | ok selection =>
    by_cases warranted : selection.indices ≠ [] ∧
      (lines.tail.findSome? confirmation?).getD false = true
    · obtain ⟨nonempty, confirmed⟩ := warranted
      simp [nonempty, confirmed]
    · simp only [warranted, if_false, List.not_mem_nil, false_iff]
      rintro ⟨packages, ⟨selection', same, nonempty, confirmed, -⟩, -⟩
      cases same
      exact warranted ⟨nonempty, confirmed⟩

/-- What is warranted decides how a session ends that goes through to its end. -/
theorem verdict_of_warranted (manager : Manager) (project : Path) (status : Int)
    (nonempty : unused ≠ []) (warranted : Warranted unused lines packages) :
    verdict manager unused lines status = endOf manager packages status ∧
      callsOf manager project unused lines = [⟨manager.removalCommand packages, project⟩] := by
  obtain ⟨selection, parsed, someIndex, confirmed, rfl⟩ := warranted_iff.mp warranted
  unfold verdict callsOf
  rw [if_neg nonempty, parsed]
  dsimp only
  rw [if_pos ⟨someIndex, confirmed⟩, if_pos ⟨someIndex, confirmed⟩]
  exact ⟨rfl, rfl⟩

theorem verdict_of_not_warranted (manager : Manager) (status : Int)
    (not : ∀ packages, ¬ Warranted unused lines packages) (nonempty : unused ≠ []) :
    verdict manager unused lines status = .ok ⟨[], true, none⟩ ∨
      ∃ number, Selection.parse (lines.head?.getD "") unused.length = .error number ∧
        verdict manager unused lines status = .error (.failed (.tooLong number)) := by
  unfold verdict
  rw [if_neg nonempty]
  cases parsed : Selection.parse (lines.head?.getD "") unused.length with
  | error number => exact .inr ⟨number, rfl, rfl⟩
  | ok selection =>
    refine .inl (if_neg fun holds => ?_)
    exact not _ (warranted_iff.mpr ⟨selection, parsed, holds.1, holds.2, rfl⟩)

end

/-- What a session may come to, and what it runs. -/
structure Safe (stream : Stream) (manager : Manager) (project : Path) (unused : List Name)
    (lines : List String) (status : Int) (ending : Except Ending Outcome) (calls : List Call) :
    Prop where
  /-- A program is run for what is warranted only, and it is the only one. Its status decides how
  the session ends. -/
  called : ∀ call ∈ calls, calls = [call] ∧ unused ≠ [] ∧ ∃ packages,
    Warranted unused lines packages ∧ call = ⟨manager.removalCommand packages, project⟩ ∧
      ending = endOf manager packages status
  /-- Where nothing is run, nothing is removed; with packages to choose from this is a
  cancellation. -/
  uncalled : calls = [] → ∀ outcome, ending = .ok outcome → outcome = ⟨[], decide (unused ≠ []), none⟩
  /-- What is warranted is removed, unless something cannot be printed before that. -/
  removes : Plain stream manager unused lines → unused ≠ [] → ∀ packages,
    Warranted unused lines packages → calls = [⟨manager.removalCommand packages, project⟩]
  /-- No failures but those of the program that is run, and of numbers that are too long. -/
  fails : Plain stream manager unused lines → ∀ stop, ending = .error stop →
    calls ≠ [] ∧ stop = .failed (.removal (.exited manager.name status)) ∨
      ∃ number, Selection.parse (lines.head?.getD "") unused.length = .error number ∧
        stop = .failed (.tooLong number)

/-- The lines of an input, with their line feeds. -/
def linesOf (input : String) : List String := (Text.wholeLines input.toList).map String.ofList

section

variable {stream : Stream} {project : Path} {manager : Manager} {unused : List Name}
  {lines : List String} {status : Int}

/-- A session that goes through to its end is safe. -/
theorem safe_verdict : Safe stream manager project unused lines status
    (verdict manager unused lines status)
    (if unused = [] then [] else callsOf manager project unused lines) := by
  by_cases empty : unused = []
  · simp only [empty, if_true, verdict]
    refine ⟨by simp, fun _ outcome same => ?_, fun _ nonempty => absurd rfl nonempty, fun _ _ same => ?_⟩
    · cases same
      simp
    · cases same
  · simp only [empty, if_false]
    by_cases warranted : ∃ packages, Warranted unused lines packages
    · obtain ⟨packages, warranted⟩ := warranted
      obtain ⟨ends, calls⟩ := verdict_of_warranted manager project status empty warranted
      rw [ends, calls]
      refine ⟨?_, by simp, ?_, fun _ stop failed => .inl ⟨by simp, ?_⟩⟩
      · intro call member
        obtain rfl := List.mem_singleton.mp member
        exact ⟨rfl, empty, packages, warranted, rfl, rfl⟩
      · intro _ _ others warranted'
        rw [← calls, (verdict_of_warranted manager project status empty warranted').2]
      · unfold endOf at failed
        split at failed
        · cases failed
        · exact (Except.error.inj failed).symm
    · have not : ∀ packages, ¬ Warranted unused lines packages := not_exists.mp warranted
      have noCalls : callsOf manager project unused lines = [] := by
        refine List.eq_nil_iff_forall_not_mem.mpr fun call member => ?_
        obtain ⟨packages, warranted, -⟩ := mem_callsOf.mp member
        exact not packages warranted
      rw [noCalls]
      refine ⟨by simp, fun _ outcome same => ?_, fun _ _ packages holds => absurd holds (not _),
        fun _ stop failed => .inr ?_⟩
      · rcases verdict_of_not_warranted manager status not empty with ends | ⟨number, -, ends⟩
        · rw [ends] at same
          cases same
          simp [empty]
        · rw [ends] at same
          cases same
      · rcases verdict_of_not_warranted manager status not empty with ends | ⟨number, parsed, ends⟩
        · rw [ends] at failed
          cases failed
        · rw [ends] at failed
          exact ⟨number, parsed, (Except.error.inj failed).symm⟩

/-- A session that stops because something cannot be printed is safe. -/
theorem safe_stuck (stuck : ¬ Plain stream manager unused lines) (failure : Failure) :
    Safe stream manager project unused lines status (.error (.failed failure)) [] where
  called := by simp
  uncalled _ _ same := by cases same
  removes plain := absurd plain stuck
  fails plain := absurd plain stuck

end

section

variable [Platform]

/-- The confirmation of a removal. -/
def proceed (console : Console) : Conversation Bool :=
  askUntil console "[bold]Proceed?[/] (y/N): " "Please enter Y or N" false confirmation?

/-- The removal is confirmed in as many rounds as it takes. -/
def Repeats (console : Console) : Prop :=
  proceed console =
    round console "[bold]Proceed?[/] (y/N): " "Please enter Y or N" false confirmation?
      (proceed console)

theorem repeats (console : Console) : Repeats console := askUntil_eq _ _ _ _ _

/-- A session is safe, whatever its input, and it is the whole of a session: the rounds in which the
removal is confirmed are not cut short. -/
theorem session_safe (width : Nat) (stream : Stream) (project : Path) (manager : Manager)
    (unused : List Name) (input : String) (status : Int) :
    let console := ⟨width, stream, .wholeLines⟩
    let ran := (dialogue console (.recorder status) project manager unused).run ⟨linesOf input, []⟩
    Safe stream manager project unused (linesOf input) status ran.1 (callsIn ran.2.transcript) ∧
      Repeats console := by
  refine ⟨?_, repeats _⟩
  have goes : GoesUnless (¬ Plain stream manager unused (linesOf input))
      (dialogue ⟨width, stream, .wholeLines⟩ (.recorder status) project manager unused)
      (linesOf input) (verdict manager unused (linesOf input) status)
      (if unused = [] then [] else callsOf manager project unused (linesOf input)) :=
    goesUnless_dialogue rfl
  rcases goes with ⟨left, goes⟩ | ⟨stuck, failure, left, -, stops⟩
  · obtain ⟨events, same, calls⟩ := goes []
    simp only [same, List.nil_append, calls]
    exact safe_verdict
  · obtain ⟨events, same, calls⟩ := stops []
    simp only [same, List.nil_append, calls]
    exact safe_stuck stuck failure

end

end DependencyAudit.Removal

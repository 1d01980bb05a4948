import DependencyAudit.Proofs.Conversation.Stays
import DependencyAudit.Proofs.Removal.Selection
import DependencyAudit.Removal.Dialogue

namespace DependencyAudit.Removal

open Conversation

/-- The line, in lower case and without the blanks around it, is one of these words. -/
def Says (words : List String) (line : String) : Prop :=
  String.ofList ((Text.trim line.toList).map Char.toLower) ∈ words

/-- A removal is confirmed by the last of some lines; those before it say neither yes nor no. -/
def Confirmed (lines : List String) : Prop :=
  ∃ skipped last, lines = skipped ++ [last] ∧
    (∀ line ∈ skipped, ¬ Says ["y", "yes", "n", "no"] line) ∧ Says ["y", "yes"] last

theorem confirmation?_eq_none_iff {line : String} :
    confirmation? line = none ↔ ¬ Says ["y", "yes", "n", "no"] line := by
  unfold confirmation? Says
  generalize String.ofList ((Text.trim line.toList).map Char.toLower) = word
  by_cases yes : word = "y" ∨ word = "yes"
  · simp only [yes, if_true, reduceCtorEq, false_iff, not_not, List.mem_cons]
    tauto
  · by_cases no : word = "n" ∨ word = "no"
    · simp only [yes, no, if_true, if_false, reduceCtorEq, false_iff, not_not, List.mem_cons]
      tauto
    · simp only [yes, no, if_false, true_iff, List.mem_cons, List.not_mem_nil, or_false]
      tauto

theorem confirmation?_eq_true_iff {line : String} :
    confirmation? line = some true ↔ Says ["y", "yes"] line := by
  unfold confirmation? Says
  generalize String.ofList ((Text.trim line.toList).map Char.toLower) = word
  by_cases yes : word = "y" ∨ word = "yes"
  · simp [yes]
  · by_cases no : word = "n" ∨ word = "no" <;> simp [no, not_or.mp yes]

/-- Events in which packages are listed, picked by a line of input, and removed by one program, once
the lines after that one have confirmed it. -/
def Removes [Platform] (console : Console) (run : Runner) (project : Path) (manager : Manager)
    (unused : List Name) (events : List Event) : Prop :=
  ∃ shown asked after call status answer lines selection,
    events = shown ++ asked ++ .called call.command call.directory :: after ∧
    Quiet shown ∧ callsIn asked = [] ∧ Quiet after ∧
    (∀ markup ∈ choices unused, ∃ text, paged console markup = .ok text ∧
      .printed console.stream text ∈ shown) ∧
    answersIn asked = answer :: lines ∧ Confirmed lines ∧
    Selection.parse answer unused.length = .ok selection ∧
    run (manager.removalCommand (selection.pick unused)) project = .ok (call, status)

/-- Nothing is picked without an answer. -/
theorem exists_line_of_parse {answer : Option String} {count : Nat} {selection : Selection}
    (parsed : Selection.parse (answer.getD "") count = .ok selection)
    (nonempty : selection.indices ≠ []) : ∃ line, answer = some line := by
  cases answer with
  | none =>
    rw [Option.getD_none, Selection.parse_empty] at parsed
    cases parsed
    exact absurd rfl nonempty
  | some line => exact ⟨line, rfl⟩

section

variable [Platform] {console : Console} {run : Runner} {project : Path} {manager : Manager}
  {unused packages : List Name}

theorem silent_cancel : Silent (cancel console) :=
  (silent_say _ _).bind fun _ => silent_pure _

/-- A removal runs one program, or none if it cannot be run. -/
theorem meets_remove : Meets (remove console run project manager packages) fun events _ =>
    Quiet events ∨ ∃ before after call status,
      events = before ++ .called call.command call.directory :: after ∧ Quiet before ∧
        Quiet after ∧ run (manager.removalCommand packages) project = .ok (call, status) := by
  refine (meets_tell _ _).bind ?_ ?_
  · intro events stop holds
    obtain ⟨quiet, _⟩ := holds
    exact .inl quiet
  intro before _ holds
  obtain ⟨quiet, _⟩ := holds
  refine .ofExcept_bind (fun stop => .inl (quiet.append .nil)) ?_
  intro answer ran
  obtain ⟨call, status⟩ := answer
  refine .note_bind rfl (Meets.mono (P := fun more _ => Quiet more) ?_ ?_)
  · dsimp only
    split
    · exact (silent_throw _).bind fun _ => (silent_say _ _).bind fun _ => silent_pure _
    · exact (silent_say _ _).bind fun _ => silent_pure _
  · intro more ending quiet'
    exact .inr ⟨before, more, call, status, rfl, quiet, quiet', ran⟩

theorem meets_confirmation (console : Console) (question complaint : String) :
    Meets (askUntil console question complaint false confirmation?) fun events ending =>
      callsIn events = [] ∧ (ending = .ok true → Confirmed (answersIn events)) := by
  refine (meets_askUntil _ _ _ _ _).mono ?_
  intro events ending holds
  obtain ⟨noCalls, ends⟩ := holds
  refine ⟨noCalls, fun ended => ?_⟩
  rcases ends true ended with impossible | ⟨skipped, last, read, passed, confirms⟩
  · cases impossible
  · exact ⟨skipped, last, read, fun line member => confirmation?_eq_none_iff.mp (passed line member),
      confirmation?_eq_true_iff.mp confirms⟩

/-- A dialogue runs nothing, or it removes what has been picked and confirmed. -/
theorem meets_dialogue : Meets (dialogue console run project manager unused) fun events _ =>
    callsIn events = [] ∨ Removes console run project manager unused events := by
  unfold dialogue
  dsimp only
  split
  · refine (meets_say _ _).bind_calls (fun _ _ said => said.1.calls) ?_
    intro events _ _
    exact .of_pure (.inl rfl)
  refine (meets_forM_tell _ _).bind_calls (fun _ _ said => said.1.calls) ?_
  intro shown _ holds
  obtain ⟨quiet, listed⟩ := holds
  refine (meets_ask _ _).bind_calls (fun _ _ asked => asked.1) ?_
  intro asked answer holds
  obtain ⟨noCalls, reads⟩ := holds
  refine .ofExcept_bind (fun _ => .inl rfl) ?_
  intro selection parsed
  refine (silent_forM (fun token => silent_say _ _) _).bind_calls (fun _ _ quiet => quiet.calls) ?_
  intro warned _ quietWarned
  split
  next => exact silent_cancel.mono fun _ _ quiet => .inl quiet.calls
  next nonempty =>
    refine (silent_forM (silent_tell _) _).bind_calls (fun _ _ quiet => quiet.calls) ?_
    intro told _ quietTold
    refine (meets_confirmation _ _ _).bind_calls (fun _ _ asked => asked.1) ?_
    intro confirmed proceed holds
    obtain ⟨noCalls', confirms⟩ := holds
    cases proceed with
    | false => exact silent_cancel.mono fun _ _ quiet => .inl quiet.calls
    | true =>
      refine meets_remove.mono ?_
      intro more _ holds
      rcases holds with quiet | ⟨before, after, call, status, rfl, quietBefore, quietAfter, ran⟩
      · exact .inl quiet.calls
      obtain ⟨line, rfl⟩ := exists_line_of_parse parsed nonempty
      refine .inr ⟨shown, asked ++ warned ++ told ++ confirmed ++ before, after, call, status, line,
        answersIn confirmed, selection, by simp, quiet, ?_, quietAfter, listed rfl, ?_,
        confirms rfl, parsed, ran⟩
      · simp [noCalls, noCalls', quietWarned.calls, quietTold.calls, quietBefore.calls]
      · simp [reads line rfl, quietWarned.answers, quietTold.answers, quietBefore.answers]

section

variable {allowed : Event → Prop} {stops : Ending → Prop}
  (failed : ∀ failure, stops (.failed failure))
  (printed : ∀ text, allowed (.printed console.stream text))
include failed printed

theorem stays_cancel : Stays allowed stops (cancel console) :=
  (Stays.of_say failed printed _).bind fun _ => .of_pure _

theorem stays_remove (called : ∀ command directory, allowed (.called command directory)) :
    Stays allowed stops (remove console run project manager packages) := by
  refine (Stays.of_tell failed printed _).bind fun _ => (Stays.of_ofExcept failed _ _).bind ?_
  intro answer
  refine (Stays.of_note rfl (called _ _)).bind fun _ => ?_
  have told : Stays allowed stops (do
      say console s!"\n[green]✓[/] Successfully removed {packages.length} package(s)"
      return ⟨packages, false, some (manager.removalCommand packages)⟩ : Conversation Outcome) :=
    (Stays.of_say failed printed _).bind fun _ => .of_pure _
  dsimp only
  split
  · exact (Stays.of_throw (failed _)).bind fun _ => told
  · exact told

/-- A dialogue prints on its console, reads lines and runs programs. It ends early where something
fails or the input ends. -/
theorem stays_dialogue (answered : ∀ line, allowed (.answered line))
    (called : ∀ command directory, allowed (.called command directory)) (aborted : stops .aborted) :
    Stays allowed stops (dialogue console run project manager unused) := by
  unfold dialogue
  dsimp only
  split
  · exact (Stays.of_say failed printed _).bind fun _ => .of_pure _
  refine (Stays.of_forM (Stays.of_tell failed printed) _).bind fun _ => ?_
  refine (Stays.of_ask failed printed answered aborted _).bind fun answer => ?_
  refine (Stays.of_ofExcept failed _ _).bind fun selection => ?_
  refine (Stays.of_forM (fun _ => Stays.of_say failed printed _) _).bind fun _ => ?_
  split
  · exact stays_cancel failed printed
  · refine (Stays.of_forM (Stays.of_tell failed printed) _).bind fun _ => ?_
    refine (Stays.of_askUntil failed printed answered aborted _ _ _ _).bind fun proceed => ?_
    split
    · exact stays_remove failed printed called
    · exact stays_cancel failed printed

end

/-- Where a dialogue returns, it has run the program that removes what it says is removed, with the
status 0, or nothing at all if nothing is removed. -/
def Removed (run : Runner) (project : Path) (manager : Manager) (calls : List Call)
    (removed : List Name) : Prop :=
  calls = [] ∧ removed = [] ∨
    ∃ call, calls = [call] ∧ run (manager.removalCommand removed) project = .ok (call, 0)

theorem returns_remove : Returns (remove console run project manager packages) fun calls outcome =>
    Removed run project manager calls outcome.removed := by
  refine .after_tell (.after_ofExcept fun answer ran => ?_)
  obtain ⟨call, status⟩ := answer
  refine Meets.note_bind rfl ?_
  dsimp only
  split
  · exact Meets.of_throw_bind fun _ same => by cases same
  next fine =>
    refine (meets_say _ _).bind (fun _ _ _ _ same => by cases same) fun events _ said => ?_
    refine .of_pure fun outcome same => ?_
    cases same
    have quiet := said.1.calls
    refine .inr ⟨call, ?_, not_not.mp fine ▸ ran⟩
    rw [List.append_nil]
    exact congrArg (call :: ·) quiet

theorem returns_dialogue : Returns (dialogue console run project manager unused)
    fun calls outcome => Removed run project manager calls outcome.removed := by
  have failed : ∀ failure, AnyEnding (.failed failure) := fun _ => trivial
  have printed : ∀ text, ¬ IsCall (.printed console.stream text) := fun _ => id
  have answered : ∀ line, ¬ IsCall (.answered line) := fun _ => id
  have cancels : Returns (cancel console)
      fun calls outcome => Removed run project manager calls outcome.removed :=
    .after (Stays.of_say failed printed _) fun _ => .of_pure (.inl ⟨rfl, rfl⟩)
  unfold dialogue
  dsimp only
  split
  · exact .after (Stays.of_say failed printed _) fun _ => .of_pure (.inl ⟨rfl, rfl⟩)
  refine .after (Stays.of_forM (Stays.of_tell failed printed) _) fun _ => ?_
  refine .after (Stays.of_ask failed printed answered (trivial : AnyEnding _) _) fun answer => ?_
  refine .after_ofExcept fun selection _ => ?_
  refine .after (Stays.of_forM (fun _ => Stays.of_say failed printed _) _) fun _ => ?_
  split
  · exact cancels
  · refine .after (Stays.of_forM (Stays.of_tell failed printed) _) fun _ => ?_
    refine .after (Stays.of_askUntil failed printed answered (trivial : AnyEnding _) _ _ _ _)
      fun proceed => ?_
    split
    · exact returns_remove
    · exact cancels

theorem runsOnly_dialogue : RunsOnly (dialogue console run project manager unused)
    (Removes console run project manager unused) := by
  refine meets_dialogue.mono ?_
  intro events _ holds
  exact holds.imp_right .of_kind

end

end DependencyAudit.Removal

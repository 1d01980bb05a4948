import DependencyAudit.Proofs.Conversation.Parallel
import DependencyAudit.Proofs.Removal.Session
import DependencyAudit.Proofs.Text.Blank

namespace DependencyAudit

namespace Text

/-- The line feed of a line is one of the blanks at its end. -/
theorem trim_bareLine (line : List Char) : trim (bareLine line) = trim line := by
  unfold bareLine
  split
  next fed =>
    have whole : line.dropLast ++ ['\n'] = line := List.dropLast_append_getLast? '\n' fed
    calc trim line.dropLast = trim (line.dropLast ++ ['\n']) := (trim_append_blank rfl _).symm
      _ = trim line := by rw [whole]
  next => rfl

end Text

namespace Removal

open Conversation

/-- A line without its line feed. -/
def bare (line : String) : String := String.ofList (Text.bareLine line.toList)

/-- The input ends before it is decided what to remove: there is no line to pick packages, or the
first one picks some and none after it says yes or no. -/
def Undecided (count : Nat) (lines : List String) : Prop :=
  lines = [] ∨ ∃ selection, Selection.parse (lines.head?.getD "") count = .ok selection ∧
    selection.indices ≠ [] ∧ ∀ line ∈ lines.tail, ¬ Says ["y", "yes", "n", "no"] line

/-- How the end of a session without line ends follows from the end of one with them. What the first
one returns is what becomes of an outcome; it is aborted where it is undecided, and then the second
one has been cancelled. -/
inductive Follows {β : Type} (undecided : Prop) (value : Outcome → β) :
    Except Ending Outcome → Except Ending β → Prop
  | returned {outcome : Outcome} : ¬ undecided → Follows undecided value (.ok outcome)
      (.ok (value outcome))
  | aborted : undecided → Follows undecided value (.ok ⟨[], true, none⟩) (.error .aborted)
  | failed (failure : Failure) : Follows undecided value (.error (.failed failure))
      (.error (.failed failure))

section

variable {β : Type} {undecided : Prop}

theorem findSome?_confirmation?_eq_none_iff {lines : List String} :
    lines.findSome? confirmation? = none ↔ ∀ line ∈ lines, ¬ Says ["y", "yes", "n", "no"] line := by
  simp only [List.findSome?_eq_none_iff, confirmation?_eq_none_iff]

theorem Follows.map {ending ending' : Except Ending Outcome}
    (follows : Follows undecided id ending ending') (value : Outcome → β) :
    Follows undecided value ending (ending'.map value) := by
  cases follows with
  | returned decided => exact .returned decided
  | aborted undecided => exact .aborted undecided
  | failed failure => exact .failed failure

theorem relatesFailures_follows : RelatesFailures (Follows undecided (id : Outcome → Outcome)) :=
  .failed

theorem parse_bare (line : String) (count : Nat) :
    Selection.parse (bare line) count = Selection.parse line count := by
  unfold Selection.parse bare
  rw [String.toList_ofList, Text.trim_bareLine]

theorem confirmation?_bare (line : String) : confirmation? (bare line) = confirmation? line := by
  unfold confirmation? bare
  rw [String.toList_ofList, Text.trim_bareLine]

theorem findSome?_confirmation?_bare (lines : List String) :
    (lines.map bare).findSome? confirmation? = lines.findSome? confirmation? := by
  have same : confirmation? ∘ bare = confirmation? := by
    funext line
    rw [Function.comp_apply, confirmation?_bare]
  rw [List.findSome?_map, same]

end

section

variable [Platform] {undecided : Prop} {console console' : Console} {run : Runner}
  {project : Path} {manager : Manager} {unused packages : List Name} {lines lines' : List String}

/-- Where all that is printed is harmless, the lines tell how a session ends and which calls it
makes. -/
theorem dialogue_of_plain (project : Path) (status : Int) (nonempty : unused ≠ [])
    (whole : console.reading = .wholeLines) (plain : Plain console.stream manager unused lines) :
    let session := (dialogue console (.recorder status) project manager unused).run ⟨lines, []⟩
    session.1 = verdict manager unused lines status ∧
      callsIn session.2.transcript = callsOf manager project unused lines := by
  have goes : GoesUnless (¬ Plain console.stream manager unused lines)
      (dialogue console (.recorder status) project manager unused) lines
      (verdict manager unused lines status)
      (if unused = [] then [] else callsOf manager project unused lines) := goesUnless_dialogue whole
  rcases goes with ⟨left, goes⟩ | ⟨stuck, -⟩
  · obtain ⟨events, ran, runs⟩ := goes []
    dsimp only
    rw [ran, List.nil_append, runs, if_neg nonempty]
    exact ⟨rfl, rfl⟩
  · exact absurd plain stuck

theorem parallel_cancel (decided : ¬ undecided) :
    Parallel (Follows undecided id) (cancel console) lines (cancel console') lines' :=
  .of_goes (goes_cancel console lines) (goes_cancel console' lines') (.returned decided)

variable (alike : ∀ markup, paged console markup = paged console' markup)
include alike

/-- A removal that has been confirmed takes no more input. -/
theorem parallel_remove (decided : ¬ undecided) :
    Parallel (Follows undecided id) (remove console run project manager packages) lines
      (remove console' run project manager packages) lines' := by
  unfold remove
  refine .after_tell relatesFailures_follows (alike _) ?_
  refine .after_ofExcept relatesFailures_follows fun answer _ => ?_
  obtain ⟨call, status⟩ := answer
  refine .after_goes (.of_note (.called call.command call.directory) lines)
    (.of_note (.called call.command call.directory) lines') ?_
  dsimp only
  split
  · exact .of_goes (Goes.of_fail _ lines).bind_of_error (Goes.of_fail _ lines').bind_of_error
      (.failed _)
  · rw [say_eq_tell, say_eq_tell]
    refine .after_tell relatesFailures_follows (alike _) ?_
    exact .of_goes (.of_pure _ lines) (.of_pure _ lines') (.returned decided)

theorem parallel_settle {selection : Selection} (whole : console.reading = .wholeLines)
    (reads : console'.reading = .bareLines) (filled : "" ∉ lines.map bare)
    (decides : undecided ↔ selection.indices ≠ [] ∧
      ∀ line ∈ lines, ¬ Says ["y", "yes", "n", "no"] line) :
    Parallel (Follows undecided id) (settle console run project manager unused selection) lines
      (settle console' run project manager unused selection) (lines.map bare) := by
  rw [← findSome?_confirmation?_eq_none_iff] at decides
  unfold settle
  by_cases nothing : selection.indices = []
  · simp only [nothing, if_true]
    exact parallel_cancel fun not => (decides.mp not).1 nothing
  simp only [nothing, if_false]
  refine .after_forM_tell relatesFailures_follows alike ?_
  obtain ⟨left, confirms⟩ := Goes.of_askUntil false confirmation? whole (exists_inline_proceed _)
    (exists_page_complaint _) lines
  obtain ⟨left', confirms'⟩ := Goes.of_askUntil_bare false confirmation? reads
    (exists_inline_proceed _) (exists_page_complaint _) filled
  rw [findSome?_confirmation?_bare] at confirms'
  cases found : lines.findSome? confirmation? with
  | none =>
    rw [found] at confirms confirms'
    exact .of_goes (confirms.bind (goes_cancel console left)) confirms'.bind_of_error
      (.aborted (decides.mpr ⟨nothing, found⟩))
  | some proceed =>
    rw [found] at confirms confirms'
    have decided : ¬ undecided := fun not => by
      rw [(decides.mp not).2] at found
      cases found
    refine .after_goes confirms confirms' ?_
    cases proceed with
    | true => exact parallel_remove alike decided
    | false => exact parallel_cancel decided

/-- Side by side, a session with whole lines and one with bare lines. -/
theorem parallel_dialogue (nonempty : unused ≠ []) (whole : console.reading = .wholeLines)
    (reads : console'.reading = .bareLines) (filled : "" ∉ (lines.map bare).tail) :
    Parallel (Follows (Undecided unused.length lines) id)
      (dialogue console run project manager unused) lines
      (dialogue console' run project manager unused) (lines.map bare) := by
  rw [dialogue_eq nonempty, dialogue_eq nonempty]
  refine .after_forM_tell relatesFailures_follows alike ?_
  cases lines with
  | nil =>
    have asks := Goes.of_ask whole (exists_inline_choice _) []
    have cancels : Goes (settle console run project manager unused .nothing) []
        (.ok ⟨[], true, none⟩) [] [] := goes_cancel console []
    have aborts := Goes.of_ask_nil reads (exists_inline_choice _)
    refine .of_goes (asks.bind (?_ : Goes _ _ _ [] [])) aborts.bind_of_error (.aborted (.inl rfl))
    exact (Goes.of_pure Selection.nothing []).bind ((Goes.of_pure () []).bind cancels)
  | cons first rest =>
    have asks := Goes.of_ask whole (exists_inline_choice _) (first :: rest)
    have asks' := Goes.of_ask_bare reads (exists_inline_choice _) (bare first) (rest.map bare)
    refine .after_goes asks asks' ?_
    have same : (if bare first = "" then none else some (bare first)).getD "" = bare first := by
      split
      next empty => exact empty.symm
      next => rfl
    rw [same, parse_bare]
    refine .after_ofExcept relatesFailures_follows fun selection parsed => ?_
    rw [forM_say_eq, forM_say_eq]
    refine .after_forM_tell relatesFailures_follows alike ?_
    refine parallel_settle alike whole reads filled ?_
    constructor
    · rintro (empty | ⟨selection', parsed', picks, unsaid⟩)
      · cases empty
      · cases parsed.symm.trans parsed'
        exact ⟨picks, unsaid⟩
    · rintro ⟨picks, unsaid⟩
      exact .inr ⟨selection, parsed, picks, unsaid⟩

end

end Removal

end DependencyAudit

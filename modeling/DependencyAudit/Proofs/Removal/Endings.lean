import DependencyAudit.Proofs.Conversation.Ends
import DependencyAudit.Proofs.Removal.Selection
import DependencyAudit.Proofs.Removal.Shown

namespace DependencyAudit.Removal

open Conversation

variable [Platform] {console : Console} {run : Runner} {project : Path} {manager : Manager}
  {unused packages : List Name} {known : String → Prop} {stops : Ending → Prop}

theorem ends_cancel : Ends known Anything stops (cancel console) :=
  (Ends.of_said (exists_page_cancelled console.width)).bind fun _ _ => .of_pure trivial

section

variable (broken : ∀ name ∈ unused, ∀ p ∈ name.points, ∀ failure,
    Breaks console.stream p failure → stops (.failed failure))
  (exited : ∀ status, stops (.failed (.removal (.exited manager.name status))))
  (failed : ∀ packages failure, packages ⊆ unused →
    run (manager.removalCommand packages) project = .error failure → stops (.failed failure))
  (plainManager : '[' ∉ manager.name.toList)
include broken

omit [Platform] in
theorem stops_of_breaks (among : packages ⊆ unused) {failure : Failure}
    (breaks : ∃ p ∈ packages.flatMap Name.points, Breaks console.stream p failure) :
    stops (.failed failure) := by
  obtain ⟨p, member, breaks⟩ := breaks
  obtain ⟨name, inPackages, inName⟩ := List.mem_flatMap.mp member
  exact broken name (among inPackages) p inName failure breaks

include exited failed plainManager

theorem ends_remove (among : packages ⊆ unused) :
    Ends known Anything stops (remove console run project manager packages) := by
  unfold remove
  refine (Ends.of_tell fun failure refused => ?_).bind fun _ _ => ?_
  · exact stops_of_breaks broken among (printedUnless_running plainManager failure refused)
  refine (Ends.of_ofExcept fun failure ran => ?_).bind fun answer _ => ?_
  · exact failed packages failure among ran
  refine (Ends.of_note rfl).bind fun _ _ => ?_
  have fails : ∀ status, Ends known Anything stops
      (fail (.removal (.exited manager.name status)) : Conversation Unit) :=
    fun status => .of_throw (exited status)
  dsimp only
  refine Ends.after_ite (fun _ => fails _) ?_
  exact (Ends.of_said (exists_page_removed packages.length console.width)).bind
    fun _ _ => .of_pure trivial

/-- A dialogue ends early for one of these reasons. What it prints besides its own words are the
names of the packages and parts of the lines that it reads. -/
theorem ends_dialogue (aborted : stops .aborted)
    (bracketed : ∀ line, known line → ∀ token ∈ Selection.tokens (Text.trim line.toList),
      '[' ∈ token → ∀ fault, stops (.failed (.markup fault)))
    (long : ∀ line, known line → ∀ token ∈ Selection.tokens (Text.trim line.toList),
      Selection.IsLong token → stops (.failed (.tooLong ⟨token.length⟩))) :
    Ends known Anything stops (dialogue console run project manager unused) := by
  unfold dialogue
  split
  next =>
    exact (Ends.of_said (exists_page_nothing console.width)).bind fun _ _ => .of_pure trivial
  refine (Ends.of_forM fun markup member => Ends.of_tell fun failure refused => ?_).bind
    fun _ _ => ?_
  · exact stops_of_breaks broken (List.Subset.refl _)
      (printedUnless_of_mem_choices member failure refused)
  refine (Ends.of_ask (exists_inline_choice console.width) aborted).bind fun answer fromInput => ?_
  -- Where there is no answer, there are no parts of it.
  have parts : ∀ token ∈ Selection.tokens (Text.trim (answer.getD "").toList),
      ∃ line, known line ∧ token ∈ Selection.tokens (Text.trim line.toList) := by
    intro token member
    cases answer with
    | none => cases member
    | some line => exact ⟨line, fromInput line rfl, member⟩
  refine (Ends.of_ofExcept fun number unread => ?_).bind fun selection parsed => ?_
  · obtain ⟨token, member, isLong, rfl⟩ := Selection.exists_isLong_of_parse unread
    obtain ⟨line, isKnown, inLine⟩ := parts token member
    exact long line isKnown token inLine isLong
  refine (Ends.of_forM fun text member => Ends.of_say fun fault refused => ?_).bind fun _ _ => ?_
  · obtain ⟨token, inAnswer, rfl⟩ := Selection.exists_token_of_mem_invalid parsed member
    obtain ⟨line, isKnown, inLine⟩ := parts token inAnswer
    refine bracketed line isKnown token inLine ?_ fault
    have bracket : '[' ∈ (String.ofList token).toList :=
      Except.of_eq_error (fun plain => exists_page_warning unused.length plain console.width) refused
    rwa [String.toList_ofList] at bracket
  dsimp only
  split
  next => exact ends_cancel
  next =>
    have among : selection.pick unused ⊆ unused := by
      intro name member
      obtain ⟨n, -, atPlace⟩ := Selection.mem_pick.mp member
      exact List.mem_of_getElem? atPlace
    refine (Ends.of_forM fun markup member => Ends.of_tell fun failure refused => ?_).bind
      fun _ _ => ?_
    · exact stops_of_breaks broken among (printedUnless_of_mem_picked member failure refused)
    refine (Ends.of_askUntil false confirmation? (exists_inline_proceed console.width)
      (exists_page_complaint console.width) aborted).bind fun proceed _ => ?_
    cases proceed with
    | true => exact ends_remove broken exited failed plainManager among
    | false => exact ends_cancel

end

end DependencyAudit.Removal

import DependencyAudit.Proofs.Conversation.Exact
import DependencyAudit.Proofs.Terminal.Page

namespace DependencyAudit.Conversation

variable {α β γ δ : Type}

namespace Goes

variable [Platform] {console : Console} {question complaint : String}

/-- Without line ends an empty line is no answer. -/
theorem of_ask_bare (reads : console.reading = .bareLines)
    (laid : ∃ text, Terminal.inline console.width question = .ok text) (line : String)
    (rest : List String) :
    Goes (ask console question) (line :: rest) (.ok (if line = "" then none else some line)) rest
      [] := by
  obtain ⟨text, laid⟩ := laid
  unfold ask
  rw [laid, reads]
  intro transcript
  refine ⟨[.printed console.stream text, .answered line], ?_, rfl⟩
  rw [List.append_cons]
  rfl

/-- Without line ends the end of the input aborts at a question. -/
theorem of_ask_nil (reads : console.reading = .bareLines)
    (laid : ∃ text, Terminal.inline console.width question = .ok text) :
    Goes (ask console question) [] (.error .aborted) [] [] := by
  obtain ⟨text, laid⟩ := laid
  unfold ask
  rw [laid, reads]
  exact fun transcript => ⟨[.printed console.stream text], rfl, rfl⟩

/-- A question that is repeated aborts where no line answers it; no line is taken for the default
without being empty. -/
theorem of_askUntil_bare (default : α) (understand : String → Option α)
    (reads : console.reading = .bareLines)
    (asked : ∃ text, Terminal.inline console.width question = .ok text)
    (complained : ∃ text, Terminal.page console.width complaint = .ok text)
    {answers : List String} (filled : "" ∉ answers) :
    ∃ left, Goes (askUntil console question complaint default understand) answers
      (match answers.findSome? understand with
        | some value => .ok value
        | none => .error .aborted) left [] := by
  induction answers with
  | nil =>
    rw [askUntil_eq]
    exact ⟨[], (of_ask_nil reads asked).bind_of_error⟩
  | cons line rest ih =>
    rw [List.mem_cons, not_or] at filled
    have asks := of_ask_bare reads asked line rest
    rw [if_neg (Ne.symm filled.1)] at asks
    rw [askUntil_eq, List.findSome?_cons]
    cases understood : understand line with
    | some value =>
      refine ⟨rest, asks.bind (?_ : Goes _ _ _ _ [])⟩
      simp only [understood]
      exact of_pure value rest
    | none =>
      obtain ⟨left, again⟩ := ih filled.2
      refine ⟨left, asks.bind (?_ : Goes _ _ _ _ [])⟩
      simp only [understood]
      exact (of_say complained rest).bind again

end Goes

/-- Whatever has been done before, the two conversations, each from lines of input of its own, make the
same calls and come to ends of which this is true. -/
def Parallel (R : Except Ending α → Except Ending β → Prop) (c : Conversation α)
    (lines : List String) (d : Conversation β) (lines' : List String) : Prop :=
  ∀ transcript transcript', ∃ events events',
    (c.run ⟨lines, transcript⟩).2.transcript = transcript ++ events ∧
    (d.run ⟨lines', transcript'⟩).2.transcript = transcript' ++ events' ∧
    callsIn events' = callsIn events ∧
    R (c.run ⟨lines, transcript⟩).1 (d.run ⟨lines', transcript'⟩).1

/-- Failures of the one conversation are failures of the other. -/
def RelatesFailures (R : Except Ending α → Except Ending β → Prop) : Prop :=
  ∀ failure, R (.error (.failed failure)) (.error (.failed failure))

namespace Parallel

variable {R : Except Ending α → Except Ending β → Prop} {c : Conversation γ} {d : Conversation δ}
  {f : γ → Conversation α} {g : δ → Conversation β} {lines lines' left left' : List String}
  {calls : List Removal.Call}

theorem of_goes {c : Conversation α} {d : Conversation β} {ending : Except Ending α}
    {ending' : Except Ending β} (first : Goes c lines ending left calls)
    (second : Goes d lines' ending' left' calls) (related : R ending ending') :
    Parallel R c lines d lines' := by
  intro transcript transcript'
  obtain ⟨events, ran, runs⟩ := first transcript
  obtain ⟨events', ran', runs'⟩ := second transcript'
  refine ⟨events, events', ?_, ?_, runs'.trans runs.symm, ?_⟩
  · rw [ran]
  · rw [ran']
  · rw [ran, ran']
    exact related

/-- What both are sure to do leaves the rest to what comes after it. -/
theorem after_goes {a : γ} {b : δ} (first : Goes c lines (.ok a) left calls)
    (second : Goes d lines' (.ok b) left' calls) (next : Parallel R (f a) left (g b) left') :
    Parallel R (c >>= f) lines (d >>= g) lines' := by
  intro transcript transcript'
  obtain ⟨events, ran, runs⟩ := first transcript
  obtain ⟨events', ran', runs'⟩ := second transcript'
  obtain ⟨more, more', grown, grown', same, related⟩ :=
    next (transcript ++ events) (transcript' ++ events')
  refine ⟨events ++ more, events' ++ more', ?_, ?_, ?_, ?_⟩
  · rw [run_bind, ran, ← List.append_assoc]
    exact grown
  · rw [run_bind, ran', ← List.append_assoc]
    exact grown'
  · rw [callsIn_append, callsIn_append, runs, runs', same]
  · rw [run_bind, run_bind, ran, ran']
    exact related

section

variable [Platform] {console console' : Console} {f : Unit → Conversation α}
  {g : Unit → Conversation β}

/-- A text that is printed alike on both consoles is printed by both conversations or by neither. -/
theorem after_tell {markup : List Text.Point} (fails : RelatesFailures R)
    (alike : paged console markup = paged console' markup)
    (next : Parallel R (f ()) lines (g ()) lines') :
    Parallel R (tell console markup >>= f) lines (tell console' markup >>= g) lines' := by
  cases prints : paged console markup with
  | ok text =>
    exact after_goes (.of_tell ⟨text, prints⟩ lines) (.of_tell ⟨text, alike.symm.trans prints⟩ lines')
      next
  | error failure =>
    exact of_goes (Goes.of_tell_of_error prints lines).bind_of_error
      (Goes.of_tell_of_error (alike.symm.trans prints) lines').bind_of_error (fails _)

theorem after_forM_tell {ι : Type} {items : List ι} {line : ι → List Text.Point}
    (fails : RelatesFailures R) (alike : ∀ markup, paged console markup = paged console' markup)
    (next : Parallel R (f ()) lines (g ()) lines') :
    Parallel R ((items.forM fun item => tell console (line item)) >>= f) lines
      ((items.forM fun item => tell console' (line item)) >>= g) lines' := by
  induction items with
  | nil => exact after_goes (.of_pure () lines) (.of_pure () lines') next
  | cons first rest ih =>
    rw [forM_cons, forM_cons, bind_assoc, bind_assoc]
    exact after_tell fails (alike _) ih

end

theorem after_ofExcept {ε : Type} {toFailure : ε → Failure} {x : Except ε γ}
    {g : γ → Conversation β} (fails : RelatesFailures R)
    (next : ∀ a, x = .ok a → Parallel R (f a) lines (g a) lines') :
    Parallel R (ofExcept toFailure x >>= f) lines (ofExcept toFailure x >>= g) lines' := by
  cases x with
  | ok a => exact after_goes (.of_pure a lines) (.of_pure a lines') (next a rfl)
  | error e =>
    exact of_goes (Goes.of_fail (toFailure e) lines).bind_of_error
      (Goes.of_fail (toFailure e) lines').bind_of_error (fails _)

end Parallel

end DependencyAudit.Conversation

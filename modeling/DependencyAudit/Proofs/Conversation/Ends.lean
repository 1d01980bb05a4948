import DependencyAudit.Proofs.Conversation.Exact

namespace DependencyAudit.Conversation

variable {α β γ : Type}

/-- Where all lines of input are known, the conversation returns such a value or ends early for such
a reason; the lines that it leaves are known again. -/
def Ends (known : String → Prop) (returns : α → Prop) (stops : Ending → Prop)
    (c : Conversation α) : Prop :=
  ∀ desk, (∀ line ∈ desk.answers, known line) →
    (∀ line ∈ (c.run desk).2.answers, known line) ∧
      (∀ a, (c.run desk).1 = .ok a → returns a) ∧
        ∀ stop, (c.run desk).1 = .error stop → stops stop

/-- Any value. -/
def Anything (_ : α) : Prop := True

namespace Ends

variable {known : String → Prop} {returns : α → Prop} {later : β → Prop} {stops : Ending → Prop}
  {c : Conversation α} {f : α → Conversation β}

/-- What a conversation meets is known for the lines that it reads. -/
theorem of_meets {post : List Event → Except Ending α → Prop} (meets : Meets c post)
    (fine : ∀ events a, (∀ line ∈ answersIn events, known line) → post events (.ok a) → returns a)
    (early : ∀ events stop, post events (.error stop) → stops stop) :
    Ends known returns stops c := by
  intro desk lines
  obtain ⟨events, -, taken, holds⟩ := meets desk
  rw [taken] at lines
  refine ⟨fun line member => lines line (List.mem_append_right _ member), ?_, ?_⟩
  · intro a same
    rw [same] at holds
    exact fine events a (fun line member => lines line (List.mem_append_left _ member)) holds
  · intro stop same
    rw [same] at holds
    exact early events stop holds

/-- What is known of the end of a conversation from any lines is known along with its events. -/
theorem meets {post : List Event → Except Ending α → Prop}
    (ends : Ends (fun _ => True) returns stops c) (meets : Meets c post) :
    Meets c fun events ending => post events ending ∧ ∀ stop, ending = .error stop → stops stop := by
  intro desk
  obtain ⟨events, grown, taken, holds⟩ := meets desk
  exact ⟨events, grown, taken, holds, (ends desk fun _ _ => trivial).2.2⟩

theorem of_pure {a : α} (holds : returns a) : Ends known returns stops (pure a) :=
  of_meets (.of_pure (P := fun _ ending => ending = .ok a) rfl)
    (fun _ _ _ same => Except.ok.inj same ▸ holds) fun _ _ same => by cases same

theorem of_throw {stop : Ending} (stopped : stops stop) :
    Ends known returns stops (throw stop : Conversation α) :=
  of_meets (.of_throw (P := fun _ ending => ending = .error stop) rfl)
    (fun _ _ _ same => by cases same) fun _ _ same => Except.error.inj same ▸ stopped

theorem of_throw_bind {stop : Ending} (stopped : stops stop) :
    Ends known later stops (throw stop >>= f) :=
  of_meets (.of_throw_bind (P := fun _ ending => ending = .error stop) rfl)
    (fun _ _ _ same => by cases same) fun _ _ same => Except.error.inj same ▸ stopped

/-- One conversation after the other: either one can end the whole. -/
theorem bind (first : Ends known returns stops c)
    (next : ∀ a, returns a → Ends known later stops (f a)) : Ends known later stops (c >>= f) := by
  intro desk lines
  obtain ⟨left, returned, stopped⟩ := first desk lines
  rw [run_bind]
  cases ended : (c.run desk).1 with
  | ok a => exact next a (returned a ended) _ left
  | error stop =>
    refine ⟨left, by simp, fun other same => ?_⟩
    cases same
    exact stopped stop ended

/-- A first part that may be left out. -/
theorem after_ite {p : Prop} [Decidable p] {said : Conversation β}
    (first : p → Ends known later stops said) (rest : Ends known returns stops c) :
    Ends known returns stops (if p then said >>= fun _ => c else c) := by
  split
  next told => exact (first told).bind fun _ _ => rest
  next => exact rest

/-- A computation that fails ends the conversation with its failure. -/
theorem of_ofExcept {ε : Type} {toFailure : ε → Failure} {x : Except ε α}
    (early : ∀ e, x = .error e → stops (.failed (toFailure e))) :
    Ends known (x = .ok ·) stops (ofExcept toFailure x) := by
  cases x with
  | ok a => exact of_pure rfl
  | error e => exact of_throw (early e rfl)

theorem of_note {event : Event} (quiet : answersIn [event] = []) :
    Ends known Anything stops (note event) :=
  of_meets (meets_note event quiet) (fun _ _ _ _ => trivial) fun _ _ noted => by cases noted.2

theorem of_forM {g : γ → Conversation Unit} {items : List γ}
    (each : ∀ item ∈ items, Ends known Anything stops (g item)) :
    Ends known Anything stops (items.forM g) := by
  induction items with
  | nil => exact of_pure trivial
  | cons first rest ih =>
    refine (each first List.mem_cons_self).bind fun _ _ => ih fun item member => ?_
    exact each item (List.mem_cons_of_mem first member)

section

variable [Platform] {console : Console}

/-- Only a text that cannot be printed stops a conversation in which it is told. -/
theorem of_tell {markup : List Text.Point}
    (refused : ∀ failure, paged console markup = .error failure → stops (.failed failure)) :
    Ends known Anything stops (tell console markup) :=
  (of_ofExcept refused).bind fun _ _ => of_note rfl

theorem of_say {markup : String}
    (refused : ∀ fault, Terminal.page console.width markup = .error fault →
      stops (.failed (.markup fault))) : Ends known Anything stops (say console markup) :=
  (of_ofExcept refused).bind fun _ _ => of_note rfl

theorem of_said {markup : String}
    (laid : ∃ text, Terminal.page console.width markup = .ok text) :
    Ends known Anything stops (say console markup) := by
  obtain ⟨text, laid⟩ := laid
  exact of_say fun fault refused => by cases laid.symm.trans refused

/-- An answer is a line of input. -/
theorem of_ask {question : String}
    (asked : ∃ text, Terminal.inline console.width question = .ok text) (aborted : stops .aborted) :
    Ends known (fun answer => ∀ line, answer = some line → known line) stops
      (ask console question) := by
  refine (of_ofExcept fun fault failed => ?_).bind fun text _ => ?_
  · obtain ⟨text, asked⟩ := asked
    rw [failed] at asked
    cases asked
  refine (of_note rfl).bind fun _ _ => ?_
  have next : Ends known (fun answer => ∀ line, answer = some line → known line) stops
      nextLine := by
    refine of_meets meets_nextLine (fun events answer lines read => ?_) fun events stop read => ?_
    · rintro line rfl
      rcases read with ⟨_, rfl, same⟩ | ⟨_, same⟩
      · cases same
        exact lines _ List.mem_cons_self
      · cases same
    · rcases read with ⟨_, _, same⟩ | ⟨_, same⟩ <;> cases same
  refine next.bind fun answer fromInput => ?_
  split
  next => exact of_pure fromInput
  next => exact of_throw aborted
  next line _ =>
    refine of_pure fun other same => ?_
    split at same
    next => cases same
    next => exact fromInput other same

/-- A question that is repeated ends early only at the end of the input. -/
theorem of_askUntil {question complaint : String} (default : α)
    (understand : String → Option α)
    (asked : ∃ text, Terminal.inline console.width question = .ok text)
    (complained : ∃ text, Terminal.page console.width complaint = .ok text)
    (aborted : stops .aborted) :
    Ends known Anything stops (askUntil console question complaint default understand) := by
  have again : ∀ n, Ends known Anything stops
      (askAgain console question complaint default understand n) := by
    intro n
    induction n with
    | zero => exact of_pure trivial
    | succ n ih =>
      refine (of_ask asked aborted).bind fun answer _ => ?_
      split
      next => exact of_pure trivial
      next line =>
        split
        next => exact of_pure trivial
        next => exact (of_said complained).bind fun _ _ => ih
  exact fun desk lines => again (desk.answers.length + 1) desk lines

end

end Ends

end DependencyAudit.Conversation

import DependencyAudit.Proofs.Conversation

namespace DependencyAudit.Conversation

variable {α β : Type}

/-- The conversation does only what is allowed, and ends early only as is allowed. -/
def Stays (allowed : Event → Prop) (stops : Ending → Prop) (c : Conversation α) : Prop :=
  Meets c fun events ending =>
    (∀ event ∈ events, allowed event) ∧ ∀ stop, ending = .error stop → stops stop

/-- Where the conversation returns a value, this is true of the value and of the programs that it has
run. -/
def Returns (c : Conversation α) (post : List Removal.Call → α → Prop) : Prop :=
  Meets c fun events ending => ∀ a, ending = .ok a → post (callsIn events) a

namespace Stays

variable {allowed : Event → Prop} {stops : Ending → Prop} {c : Conversation α}
  {f : α → Conversation β}

theorem of_pure (a : α) : Stays allowed stops (pure a) := Meets.of_pure ⟨by simp, by simp⟩

theorem of_throw {stop : Ending} (stopped : stops stop) :
    Stays allowed stops (throw stop : Conversation α) :=
  Meets.of_throw ⟨by simp, fun _ same => Except.error.inj same ▸ stopped⟩

theorem of_throw_bind {stop : Ending} (stopped : stops stop) :
    Stays allowed stops (throw stop >>= f) :=
  Meets.of_throw_bind ⟨by simp, fun _ same => Except.error.inj same ▸ stopped⟩

theorem bind (first : Stays allowed stops c) (next : ∀ a, Stays allowed stops (f a)) :
    Stays allowed stops (c >>= f) := by
  refine Meets.bind first ?_ ?_
  · intro events stop holds
    exact ⟨holds.1, fun other same => holds.2 other (by cases same; rfl)⟩
  · intro events a holds
    refine (next a).mono fun more ending later => ⟨fun event member => ?_, later.2⟩
    exact (List.mem_append.mp member).elim (holds.1 event) (later.1 event)

/-- A first part that may be left out. -/
theorem after_ite {p : Prop} [Decidable p] {said : Conversation β}
    (first : Stays allowed stops said) (rest : Stays allowed stops c) :
    Stays allowed stops (if p then said >>= fun _ => c else c) := by
  split
  · exact first.bind fun _ => rest
  · exact rest

theorem of_forM_note {γ : Type} {event : γ → Event} (quiet : ∀ item, answersIn [event item] = [])
    (admits : ∀ item, allowed (event item)) (items : List γ) :
    Stays allowed stops (items.forM fun item => note (event item)) := by
  refine (meets_forM_note quiet items).mono fun events ending noted => ?_
  obtain ⟨rfl, rfl⟩ := noted
  refine ⟨fun other member => ?_, by simp⟩
  obtain ⟨item, -, rfl⟩ := List.mem_map.mp member
  exact admits item

theorem of_note {event : Event} (quiet : answersIn [event] = []) (admits : allowed event) :
    Stays allowed stops (note event) := by
  refine (meets_note event quiet).mono fun events ending holds => ?_
  obtain ⟨rfl, rfl⟩ := holds
  exact ⟨fun other member => List.mem_singleton.mp member ▸ admits, by simp⟩

theorem of_forM {γ : Type} {f : γ → Conversation Unit}
    (each : ∀ item, Stays allowed stops (f item)) (items : List γ) :
    Stays allowed stops (items.forM f) := by
  induction items with
  | nil => exact of_pure ()
  | cons first rest ih => exact (each first).bind fun _ => ih

section

variable (failed : ∀ failure, stops (.failed failure))
include failed

theorem of_ofExcept {ε : Type} (toFailure : ε → Failure) (x : Except ε α) :
    Stays allowed stops (ofExcept toFailure x) := by
  cases x with
  | ok a => exact of_pure a
  | error e => exact of_throw (failed _)

variable [Platform] {console : Console} (printed : ∀ text, allowed (.printed console.stream text))
include printed

theorem of_tell (markup : List Text.Point) : Stays allowed stops (tell console markup) :=
  (of_ofExcept failed _ _).bind fun text => of_note rfl (printed text)

theorem of_say (markup : String) : Stays allowed stops (say console markup) :=
  (of_ofExcept failed _ _).bind fun text => of_note rfl (printed text)

variable (answered : ∀ line, allowed (.answered line)) (aborted : stops .aborted)
include answered aborted

theorem of_ask (question : String) : Stays allowed stops (ask console question) := by
  refine (of_ofExcept failed _ _).bind fun text => (of_note rfl (printed text)).bind fun _ => ?_
  have next : Stays allowed stops nextLine := by
    refine meets_nextLine.mono fun events ending holds => ?_
    rcases holds with ⟨line, rfl, rfl⟩ | ⟨rfl, rfl⟩
    · exact ⟨fun event member => List.mem_singleton.mp member ▸ answered line, by simp⟩
    · exact ⟨by simp, by simp⟩
  refine next.bind fun line => ?_
  split
  · exact of_pure _
  · exact of_throw aborted
  · exact of_pure _

theorem of_askAgain (question complaint : String) (default : α) (understand : String → Option α)
    (n : Nat) : Stays allowed stops (askAgain console question complaint default understand n) := by
  induction n with
  | zero => exact of_pure default
  | succ n ih =>
    refine (of_ask failed printed answered aborted question).bind fun answer => ?_
    split
    · exact of_pure default
    · split
      · exact of_pure _
      · exact (of_say failed printed complaint).bind fun _ => ih

theorem of_askUntil (question complaint : String) (default : α) (understand : String → Option α) :
    Stays allowed stops (askUntil console question complaint default understand) :=
  fun desk => of_askAgain failed printed answered aborted question complaint default understand
    (desk.answers.length + 1) desk

end

end Stays

/-- The conversation may end as it does. -/
def AnyEnding (_ : Ending) : Prop := True

/-- A program is run. -/
def IsCall : Event → Prop
  | .called _ _ => True
  | _ => False

theorem callsIn_eq_nil {events : List Event} (noCalls : ∀ event ∈ events, ¬ IsCall event) :
    callsIn events = [] := by
  refine List.filterMap_eq_nil_iff.mpr fun event member => ?_
  have other := noCalls event member
  cases event with
  | called command directory => exact absurd trivial other
  | _ => rfl

namespace Returns

variable {c : Conversation α} {f : α → Conversation β} {P : List Removal.Call → α → Prop}
  {R : List Removal.Call → β → Prop}

theorem of_pure {a : α} (holds : P [] a) : Returns (pure a) P :=
  Meets.of_pure fun _ same => Except.ok.inj same ▸ holds

theorem bind (first : Returns c P) (next : ∀ calls a, P calls a →
    Returns (f a) fun more b => R (calls ++ more) b) : Returns (c >>= f) R := by
  refine Meets.bind first (fun _ _ _ _ same => by cases same) fun events a holds => ?_
  refine Meets.mono (next _ a (holds a rfl)) fun more ending later b same => ?_
  rw [callsIn_append]
  exact later b same

/-- A part that runs no programs leaves all to what comes after it. -/
theorem after {stops : Ending → Prop} (first : Stays (¬ IsCall ·) stops c)
    (next : ∀ a, Returns (f a) R) : Returns (c >>= f) R := by
  refine Meets.bind first (fun _ _ _ _ same => by cases same) fun events a holds => ?_
  refine Meets.mono (next a) fun more ending later b same => ?_
  rw [callsIn_append, callsIn_eq_nil holds.1, List.nil_append]
  exact later b same

theorem after_ofExcept {ε : Type} {toFailure : ε → Failure} {x : Except ε α}
    (next : ∀ a, x = .ok a → Returns (f a) R) : Returns (ofExcept toFailure x >>= f) R :=
  Meets.ofExcept_bind (fun _ _ same => by cases same) next

theorem after_tell [Platform] {console : Console} {markup : List Text.Point}
    {f : Unit → Conversation β} (next : Returns (f ()) R) :
    Returns (tell console markup >>= f) R :=
  have told : Stays (¬ IsCall ·) AnyEnding (tell console markup) :=
    .of_tell (fun _ => trivial) (fun _ => id) _
  .after told fun _ => next

theorem after_say [Platform] {console : Console} {markup : String} {f : Unit → Conversation β}
    (next : Returns (f ()) R) : Returns (say console markup >>= f) R := by
  rw [say_eq_tell]
  exact after_tell next

/-- A first part that may be left out and runs no programs. -/
theorem after_ite {γ : Type} {p : Prop} [Decidable p] {said : Conversation γ}
    {stops : Ending → Prop} (first : Stays (¬ IsCall ·) stops said) (rest : Returns c P) :
    Returns (if p then said >>= fun _ => c else c) P := by
  split
  · exact .after first fun _ => rest
  · exact rest

end Returns

end DependencyAudit.Conversation

import DependencyAudit.Proofs.Except
import DependencyAudit.Proofs.Text.Point
import DependencyAudit.Removal.Process
import DependencyAudit.Transcript
import Mathlib.Data.List.Basic

namespace DependencyAudit

/-- The lines of input that have been read in some events. -/
def answersIn (events : List Event) : List String :=
  events.filterMap fun
    | .answered line => some line
    | _ => none

/-- The programs that have been run in some events. -/
def callsIn (events : List Event) : List Removal.Call :=
  events.filterMap fun
    | .called command directory => some ⟨command, directory⟩
    | _ => none

@[simp] theorem answersIn_append (events more : List Event) :
    answersIn (events ++ more) = answersIn events ++ answersIn more := List.filterMap_append

@[simp] theorem callsIn_append (events more : List Event) :
    callsIn (events ++ more) = callsIn events ++ callsIn more := List.filterMap_append

/-- Events in which nothing is read and nothing is run. -/
structure Quiet (events : List Event) : Prop where
  answers : answersIn events = []
  calls : callsIn events = []

namespace Quiet

theorem nil : Quiet [] := ⟨rfl, rfl⟩

theorem append {events more : List Event} (first : Quiet events) (second : Quiet more) :
    Quiet (events ++ more) :=
  ⟨by rw [answersIn_append, first.answers, second.answers]; rfl,
    by rw [callsIn_append, first.calls, second.calls]; rfl⟩

theorem printed (stream : Stream) (text : String) : Quiet [.printed stream text] := ⟨rfl, rfl⟩

end Quiet

namespace Conversation

/-- Whatever has been done before, the conversation adds some events, reads the lines in them from
the input, and comes to an end, so that this is true of the events and of the end. -/
def Meets {α : Type} (c : Conversation α) (post : List Event → Except Ending α → Prop) : Prop :=
  ∀ desk, ∃ events, (c.run desk).2.transcript = desk.transcript ++ events ∧
    desk.answers = answersIn events ++ (c.run desk).2.answers ∧ post events (c.run desk).1

theorem run_tryCatch_of_ok {α : Type} {c : Conversation α} {handle : Ending → Conversation α}
    {before after : Desk} {a : α} (ran : c.run before = (.ok a, after)) :
    (tryCatch c handle).run before = (.ok a, after) := by
  rw [ExceptT.run_tryCatch]
  change StateT.bind (m := Id) c.run _ before = _
  unfold StateT.bind
  rw [ran]
  rfl

theorem run_tryCatch_of_error {α : Type} {c : Conversation α} {handle : Ending → Conversation α}
    {before after : Desk} {stop : Ending} (ran : c.run before = (.error stop, after)) :
    (tryCatch c handle).run before = (handle stop).run after := by
  rw [ExceptT.run_tryCatch]
  change StateT.bind (m := Id) c.run _ before = _
  unfold StateT.bind
  rw [ran]
  rfl

namespace Meets

variable {α β : Type} {c : Conversation α} {P Q : List Event → Except Ending α → Prop}

theorem mono (meets : Meets c P) (weaker : ∀ events ending, P events ending → Q events ending) :
    Meets c Q := by
  intro desk
  obtain ⟨events, grown, taken, holds⟩ := meets desk
  exact ⟨events, grown, taken, weaker _ _ holds⟩

theorem of_pure {a : α} (holds : P [] (.ok a)) : Meets (pure a) P := by
  intro desk
  exact ⟨[], (List.append_nil _).symm, rfl, holds⟩

theorem of_throw {stop : Ending} (holds : P [] (.error stop)) : Meets (throw stop) P := by
  intro desk
  exact ⟨[], (List.append_nil _).symm, rfl, holds⟩

/-- Nothing comes after the end of a conversation. -/
theorem of_throw_bind {stop : Ending} {f : β → Conversation α} (holds : P [] (.error stop)) :
    Meets (throw stop >>= f) P := by
  intro desk
  exact ⟨[], (List.append_nil _).symm, rfl, holds⟩

/-- One conversation after the other: the second one goes on from the value of the first one, unless
this has ended early. -/
theorem bind {f : α → Conversation β} {R : List Event → Except Ending β → Prop}
    (first : Meets c P) (early : ∀ events stop, P events (.error stop) → R events (.error stop))
    (next : ∀ events a, P events (.ok a) →
      Meets (f a) fun more ending => R (events ++ more) ending) :
    Meets (c >>= f) R := by
  intro desk
  obtain ⟨events, grown, taken, holds⟩ := first desk
  have whole : (c >>= f).run desk = ExceptT.bindCont f (c.run desk).1 (c.run desk).2 := rfl
  rw [whole]
  cases ended : (c.run desk).1 with
  | error stop =>
    rw [ended] at holds
    exact ⟨events, grown, taken, early _ _ holds⟩
  | ok a =>
    rw [ended] at holds
    obtain ⟨more, grown', taken', holds'⟩ := next events a holds (c.run desk).2
    refine ⟨events ++ more, ?_, ?_, holds'⟩
    · rw [← List.append_assoc, ← grown]
      exact grown'
    · rw [answersIn_append, List.append_assoc, taken]
      exact congrArg _ taken'

/-- A first part that runs nothing leaves all that may be run to the second one. -/
theorem bind_calls {f : α → Conversation β} {X : List Event → Prop} (first : Meets c P)
    (nothing : ∀ events ending, P events ending → callsIn events = [])
    (next : ∀ events a, P events (.ok a) →
      Meets (f a) fun more _ => callsIn more = [] ∨ X (events ++ more)) :
    Meets (c >>= f) fun events _ => callsIn events = [] ∨ X events := by
  refine first.bind (fun events stop holds => .inl (nothing _ _ holds)) ?_
  intro events a holds
  refine (next events a holds).mono ?_
  intro more ending ended
  rcases ended with nothingRun | runs
  · exact .inl (by rw [callsIn_append, nothing _ _ holds, nothingRun]; rfl)
  · exact .inr runs

/-- A failure that is caught is answered by another conversation. -/
theorem tryCatch {handle : Ending → Conversation α} {R : List Event → Except Ending α → Prop}
    (first : Meets c P) (fine : ∀ events a, P events (.ok a) → R events (.ok a))
    (next : ∀ events stop, P events (.error stop) →
      Meets (handle stop) fun more ending => R (events ++ more) ending) :
    Meets (tryCatch c handle) R := by
  intro desk
  obtain ⟨events, grown, taken, holds⟩ := first desk
  cases ran : c.run desk with
  | mk ending after =>
    rw [ran] at grown taken holds
    cases ending with
    | error stop =>
      rw [run_tryCatch_of_error ran]
      obtain ⟨more, grown', taken', holds'⟩ := next events stop holds after
      refine ⟨events ++ more, ?_, ?_, holds'⟩
      · rw [← List.append_assoc, ← grown]
        exact grown'
      · rw [answersIn_append, List.append_assoc, taken]
        exact congrArg _ taken'
    | ok a =>
      rw [run_tryCatch_of_ok ran]
      exact ⟨events, grown, taken, fine _ _ holds⟩

end Meets

variable {α β : Type}

theorem meets_note (event : Event) (quiet : answersIn [event] = []) :
    Meets (note event) fun events ending => events = [event] ∧ ending = .ok () := by
  intro desk
  exact ⟨[event], rfl, by rw [quiet]; rfl, rfl, rfl⟩

theorem meets_ofExcept {ε : Type} (toFailure : ε → Failure) (x : Except ε α) :
    Meets (ofExcept toFailure x) fun events ending =>
      events = [] ∧ ∀ a, ending = .ok a → x = .ok a := by
  cases x with
  | error e => exact .of_throw ⟨rfl, fun a same => by cases same⟩
  | ok a => exact .of_pure ⟨rfl, fun b same => by cases same; rfl⟩

namespace Meets

variable {P : List Event → Except Ending β → Prop}

theorem ofExcept_bind {ε : Type} {toFailure : ε → Failure} {x : Except ε α}
    {f : α → Conversation β} (early : ∀ stop, P [] (.error stop))
    (next : ∀ a, x = .ok a → Meets (f a) P) : Meets (ofExcept toFailure x >>= f) P := by
  refine (meets_ofExcept toFailure x).bind ?_ ?_
  · intro events stop holds
    obtain ⟨rfl, _⟩ := holds
    exact early stop
  · intro events a holds
    obtain ⟨rfl, given⟩ := holds
    exact next a (given a rfl)

/-- A computation that fails ends the conversation with its failure. -/
theorem ofExcept_bind_cases {ε : Type} {toFailure : ε → Failure} {x : Except ε α}
    {f : α → Conversation β} (early : ∀ e, x = .error e → P [] (.error (.failed (toFailure e))))
    (next : ∀ a, x = .ok a → Meets (f a) P) : Meets (ofExcept toFailure x >>= f) P := by
  cases x with
  | error e => exact .of_throw_bind (early e rfl)
  | ok a => exact next a rfl

theorem note_bind {event : Event} {f : Unit → Conversation β} (quiet : answersIn [event] = [])
    (next : Meets (f ()) fun more ending => P (event :: more) ending) :
    Meets (note event >>= f) P := by
  refine (meets_note event quiet).bind ?_ ?_
  · intro events stop holds
    obtain ⟨_, same⟩ := holds
    cases same
  · intro events _ holds
    obtain ⟨rfl, _⟩ := holds
    exact next

end Meets

theorem ofExcept_ok_bind {ε : Type} (toFailure : ε → Failure) (a : α) (f : α → Conversation β) :
    ofExcept toFailure (.ok a) >>= f = f a := pure_bind a f

theorem ofExcept_error_bind {ε : Type} (toFailure : ε → Failure) (e : ε) (f : α → Conversation β) :
    ofExcept toFailure (.error e) >>= f = fail (toFailure e) := rfl

section

variable [Platform]

theorem paged_points (console : Console) (markup : String) :
    paged console (Text.points markup) =
      (Terminal.page console.width markup).mapError .markup := by
  rw [paged, Text.ofPoints?_points]

/-- To print a text is to print its points. -/
theorem say_eq_tell (console : Console) (markup : String) :
    say console markup = tell console (Text.points markup) := by
  unfold say tell
  rw [paged_points]
  cases Terminal.page console.width markup <;> rfl

/-- What is told is printed, unless it cannot be. -/
theorem meets_tell (console : Console) (markup : List Text.Point) :
    Meets (tell console markup) fun events ending => Quiet events ∧
      (ending = .ok () → ∃ text, paged console markup = .ok text ∧
        events = [.printed console.stream text]) := by
  refine .ofExcept_bind (fun stop => ⟨.nil, by simp⟩) ?_
  intro text laid
  refine (meets_note _ rfl).mono ?_
  intro events ending holds
  obtain ⟨rfl, rfl⟩ := holds
  exact ⟨.printed _ _, fun _ => ⟨text, laid, rfl⟩⟩

theorem meets_say (console : Console) (markup : String) :
    Meets (say console markup) fun events ending => Quiet events ∧
      (ending = .ok () → ∃ text, Terminal.page console.width markup = .ok text ∧
        events = [.printed console.stream text]) := by
  rw [say_eq_tell]
  refine (meets_tell console _).mono fun events ending holds => ⟨holds.1, fun ended => ?_⟩
  obtain ⟨text, laid, same⟩ := holds.2 ended
  rw [paged_points, Except.mapError_eq_ok_iff] at laid
  exact ⟨text, laid, same⟩

theorem Meets.say_bind_cases {console : Console} {markup : String} {f : Unit → Conversation β}
    {P : List Event → Except Ending β → Prop}
    (early : ∀ fault, Terminal.page console.width markup = .error fault →
      P [] (.error (.failed (.markup fault))))
    (next : ∀ text, Terminal.page console.width markup = .ok text →
      Meets (f ()) fun more ending => P (.printed console.stream text :: more) ending) :
    Meets (say console markup >>= f) P := by
  unfold say
  rw [bind_assoc]
  exact .ofExcept_bind_cases early fun text laid => .note_bind rfl (next text laid)

end

/-- Quiet conversations one after the other are quiet, and each does its own. -/
theorem meets_forM {f : α → Conversation Unit} {P : α → List Event → Prop}
    (each : ∀ item, Meets (f item) fun events ending =>
      Quiet events ∧ (ending = .ok () → P item events)) (items : List α) :
    Meets (items.forM f) fun events ending => Quiet events ∧
      (ending = .ok () → ∀ item ∈ items, ∃ before part after,
        events = before ++ part ++ after ∧ P item part) := by
  induction items with
  | nil => exact .of_pure ⟨.nil, by simp⟩
  | cons first rest ih =>
    refine (each first).bind ?_ ?_
    · intro events stop holds
      obtain ⟨quiet, _⟩ := holds
      exact ⟨quiet, by simp⟩
    intro events _ holds
    obtain ⟨quiet, done⟩ := holds
    refine ih.mono ?_
    intro more ending holds
    obtain ⟨quiet', others⟩ := holds
    refine ⟨quiet.append quiet', fun ended item member => ?_⟩
    rcases List.mem_cons.mp member with rfl | later
    · exact ⟨[], events, more, rfl, done rfl⟩
    · obtain ⟨before, part, after, rfl, owned⟩ := others ended item later
      exact ⟨events ++ before, part, after, by simp only [List.append_assoc], owned⟩

/-- Events noted one after the other. -/
theorem meets_forM_note {event : α → Event} (quiet : ∀ item, answersIn [event item] = [])
    (items : List α) : Meets (items.forM fun item => note (event item)) fun events ending =>
      events = items.map event ∧ ending = .ok () := by
  induction items with
  | nil => exact .of_pure ⟨rfl, rfl⟩
  | cons first rest ih =>
    refine .note_bind (quiet first) (ih.mono fun more ending noted => ?_)
    obtain ⟨rfl, ended⟩ := noted
    exact ⟨rfl, ended⟩

theorem meets_forM_tell [Platform] (console : Console) (lines : List (List Text.Point)) :
    Meets (lines.forM (tell console)) fun events ending => Quiet events ∧
      (ending = .ok () → ∀ markup ∈ lines, ∃ text, paged console markup = .ok text ∧
        .printed console.stream text ∈ events) := by
  refine (meets_forM (meets_tell console) lines).mono ?_
  intro events ending holds
  obtain ⟨quiet, told⟩ := holds
  refine ⟨quiet, fun ended markup member => ?_⟩
  obtain ⟨before, part, after, rfl, text, laid, rfl⟩ := told ended markup member
  exact ⟨text, laid, by simp⟩

/-- A conversation in which nothing is read and nothing is run. -/
def Silent (c : Conversation α) : Prop := Meets c fun events _ => Quiet events

theorem Silent.bind {c : Conversation α} {f : α → Conversation β} (first : Silent c)
    (next : ∀ a, Silent (f a)) : Silent (c >>= f) :=
  Meets.bind first (fun _ _ quiet => quiet) fun _ a quiet =>
    (next a).mono fun _ _ quiet' => quiet.append quiet'

theorem silent_pure (a : α) : Silent (pure a) := .of_pure .nil

theorem silent_throw (stop : Ending) : Silent (throw stop : Conversation α) := .of_throw .nil

theorem silent_ofExcept {ε : Type} (toFailure : ε → Failure) (x : Except ε α) :
    Silent (ofExcept toFailure x) :=
  (meets_ofExcept toFailure x).mono fun _ _ ended => ended.1 ▸ .nil

theorem silent_note {event : Event} (quiet : Quiet [event]) : Silent (note event) :=
  (meets_note event quiet.answers).mono fun _ _ ended => ended.1 ▸ quiet

theorem silent_tell [Platform] (console : Console) (markup : List Text.Point) :
    Silent (tell console markup) :=
  (meets_tell console markup).mono fun _ _ told => told.1

theorem silent_say [Platform] (console : Console) (markup : String) :
    Silent (say console markup) :=
  (meets_say console markup).mono fun _ _ said => said.1

theorem silent_forM {f : α → Conversation Unit} (each : ∀ item, Silent (f item))
    (items : List α) : Silent (items.forM f) :=
  (meets_forM (P := fun _ _ => True) (fun item => (each item).mono fun _ _ quiet =>
    ⟨quiet, fun _ => trivial⟩) items).mono fun _ _ done => done.1

theorem meets_nextLine : Meets nextLine fun events ending =>
    (∃ line, events = [.answered line] ∧ ending = .ok (some line)) ∨
      (events = [] ∧ ending = .ok none) := by
  intro desk
  obtain ⟨answers, transcript⟩ := desk
  cases answers with
  | nil => exact ⟨[], (List.append_nil _).symm, rfl, .inr ⟨rfl, rfl⟩⟩
  | cons line rest => exact ⟨[.answered line], rfl, rfl, .inl ⟨line, rfl, rfl⟩⟩

section

variable [Platform]

/-- An answer is a line that has been read. -/
theorem meets_ask (console : Console) (question : String) :
    Meets (ask console question) fun events ending =>
      callsIn events = [] ∧ ∀ line, ending = .ok (some line) → answersIn events = [line] := by
  refine .ofExcept_bind (fun stop => ⟨rfl, by simp⟩) ?_
  intro text _
  refine .note_bind rfl (meets_nextLine.bind ?_ ?_)
  · intro events stop holds
    rcases holds with ⟨line, rfl, _⟩ | ⟨rfl, _⟩
    · exact ⟨rfl, by simp⟩
    · exact ⟨rfl, by simp⟩
  intro events found holds
  rcases holds with ⟨line, rfl, same⟩ | ⟨rfl, same⟩
  · cases same
    cases console.reading with
    | wholeLines => exact .of_pure ⟨rfl, fun other same => by cases same; rfl⟩
    | bareLines =>
      refine .of_pure ⟨rfl, fun other same => ?_⟩
      split at same
      · cases same
      · cases same
        rfl
  · cases same
    cases console.reading with
    | wholeLines => exact .of_pure ⟨rfl, by simp⟩
    | bareLines => exact .of_throw ⟨rfl, by simp⟩

/-- A value other than the default comes from the last line that has been read; those before it have
not been understood. -/
theorem meets_askAgain (console : Console) (question complaint : String) (default : α)
    (understand : String → Option α) (n : Nat) :
    Meets (askAgain console question complaint default understand n) fun events ending =>
      callsIn events = [] ∧ ∀ value, ending = .ok value → value = default ∨
        ∃ skipped line, answersIn events = skipped ++ [line] ∧
          (∀ other ∈ skipped, understand other = none) ∧ understand line = some value := by
  induction n with
  | zero => exact .of_pure ⟨rfl, fun value same => by cases same; exact .inl rfl⟩
  | succ n ih =>
    refine (meets_ask console question).bind ?_ ?_
    · intro events stop holds
      obtain ⟨noCalls, _⟩ := holds
      exact ⟨noCalls, by simp⟩
    intro events answer holds
    obtain ⟨noCalls, reads⟩ := holds
    cases answer with
    | none =>
      refine .of_pure ⟨by rw [callsIn_append, noCalls]; rfl, fun value same => ?_⟩
      cases same
      exact .inl rfl
    | some line =>
      have read := reads line rfl
      dsimp only
      cases understood : understand line with
      | some value =>
        refine .of_pure ⟨by rw [callsIn_append, noCalls]; rfl, fun other same => .inr ?_⟩
        cases same
        exact ⟨[], line, by rw [List.append_nil, read]; rfl, by simp, understood⟩
      | none =>
        refine (meets_say console complaint).bind ?_ ?_
        · intro more stop holds
          obtain ⟨quiet, _⟩ := holds
          exact ⟨by rw [callsIn_append, noCalls, quiet.calls]; rfl, by simp⟩
        intro said _ holds
        obtain ⟨quiet, _⟩ := holds
        refine ih.mono ?_
        intro more ending holds
        obtain ⟨noCalls', ends⟩ := holds
        refine ⟨by simp only [callsIn_append, noCalls, quiet.calls, noCalls']; rfl, ?_⟩
        intro value ended
        rcases ends value ended with rfl | ⟨skipped, last, reads', passed, understood'⟩
        · exact .inl rfl
        · refine .inr ⟨line :: skipped, last, ?_, ?_, understood'⟩
          · simp only [answersIn_append, read, quiet.answers, reads']
            rfl
          · intro other member
            rcases List.mem_cons.mp member with rfl | later
            · exact understood
            · exact passed other later

theorem meets_askUntil (console : Console) (question complaint : String) (default : α)
    (understand : String → Option α) :
    Meets (askUntil console question complaint default understand) fun events ending =>
      callsIn events = [] ∧ ∀ value, ending = .ok value → value = default ∨
        ∃ skipped line, answersIn events = skipped ++ [line] ∧
          (∀ other ∈ skipped, understand other = none) ∧ understand line = some value :=
  fun desk => meets_askAgain console question complaint default understand
    (desk.answers.length + 1) desk

end

/-- Among the events there are some of a kind, and the others are quiet. -/
def Amid (kind : List Event → Prop) (events : List Event) : Prop :=
  ∃ before part after, events = before ++ part ++ after ∧ Quiet before ∧ Quiet after ∧ kind part

namespace Amid

variable {kind : List Event → Prop} {events more : List Event}

theorem of_kind (holds : kind events) : Amid kind events :=
  ⟨[], events, [], (List.append_nil events).symm, .nil, .nil, holds⟩

theorem prepend (quiet : Quiet more) (amid : Amid kind events) : Amid kind (more ++ events) := by
  obtain ⟨before, part, after, rfl, quietBefore, quietAfter, holds⟩ := amid
  exact ⟨more ++ before, part, after, by simp only [List.append_assoc], quiet.append quietBefore,
    quietAfter, holds⟩

theorem append (amid : Amid kind events) (quiet : Quiet more) : Amid kind (events ++ more) := by
  obtain ⟨before, part, after, rfl, quietBefore, quietAfter, holds⟩ := amid
  exact ⟨before, part, after ++ more, by simp only [List.append_assoc], quietBefore,
    quietAfter.append quiet, holds⟩

end Amid

/-- A conversation that runs nothing except as part of events of a kind. -/
def RunsOnly (c : Conversation α) (kind : List Event → Prop) : Prop :=
  Meets c fun events _ => callsIn events = [] ∨ Amid kind events

namespace RunsOnly

variable {c : Conversation α} {f : α → Conversation β} {kind : List Event → Prop}

theorem mono {wider : List Event → Prop} (runs : RunsOnly c kind)
    (weaker : ∀ events, kind events → wider events) : RunsOnly c wider := by
  refine Meets.mono runs ?_
  intro events _ holds
  rcases holds with nothingRun | ⟨before, part, after, rfl, quietBefore, quietAfter, found⟩
  · exact .inl nothingRun
  · exact .inr ⟨before, part, after, rfl, quietBefore, quietAfter, weaker part found⟩

theorem of_silent (silent : Silent c) : RunsOnly c kind :=
  silent.mono fun _ _ quiet => .inl quiet.calls

/-- What comes after a quiet part decides. -/
theorem after_quiet {P : List Event → Except Ending α → Prop} (first : Meets c P)
    (quiet : ∀ events ending, P events ending → Quiet events)
    (next : ∀ events a, P events (.ok a) → RunsOnly (f a) kind) : RunsOnly (c >>= f) kind := by
  refine Meets.bind first (fun events stop holds => .inl (quiet _ _ holds).calls) ?_
  intro before a holds
  have start := quiet _ _ holds
  refine Meets.mono (next before a holds) ?_
  intro events _ runs
  rcases runs with nothingRun | amid
  · exact .inl (by rw [callsIn_append, start.calls, nothingRun]; rfl)
  · exact .inr (amid.prepend start)

theorem after_silent (first : Silent c) (next : ∀ a, RunsOnly (f a) kind) :
    RunsOnly (c >>= f) kind :=
  after_quiet first (fun _ _ quiet => quiet) fun _ a _ => next a

theorem after_ofExcept {ε : Type} {toFailure : ε → Failure} {x : Except ε α}
    (next : ∀ a, x = .ok a → RunsOnly (f a) kind) : RunsOnly (ofExcept toFailure x >>= f) kind := by
  refine after_quiet (meets_ofExcept toFailure x) (fun _ _ ended => ended.1 ▸ .nil) ?_
  intro _ a ended
  exact next a (ended.2 a rfl)

/-- A first part that is silent may be left out. -/
theorem after_ite {p : Prop} [Decidable p] {said : Conversation β} (silent : Silent said)
    (rest : RunsOnly c kind) : RunsOnly (if p then said >>= fun _ => c else c) kind := by
  split
  · exact after_silent silent fun _ => rest
  · exact rest

theorem silent_after (runs : RunsOnly c kind) (next : ∀ a, Silent (f a)) :
    RunsOnly (c >>= f) kind := by
  refine Meets.bind runs (fun _ _ holds => holds) ?_
  intro events a holds
  refine (next a).mono ?_
  intro more _ quiet
  rcases holds with nothingRun | amid
  · exact .inl (by rw [callsIn_append, nothingRun, quiet.calls]; rfl)
  · exact .inr (amid.append quiet)

theorem silent_catch {handle : Ending → Conversation α} (runs : RunsOnly c kind)
    (next : ∀ stop, Silent (handle stop)) : RunsOnly (tryCatch c handle) kind := by
  refine Meets.tryCatch runs (fun _ _ holds => holds) ?_
  intro events stop holds
  refine (next stop).mono ?_
  intro more _ quiet
  rcases holds with nothingRun | amid
  · exact .inl (by rw [callsIn_append, nothingRun, quiet.calls]; rfl)
  · exact .inr (amid.append quiet)

end RunsOnly

end Conversation

end DependencyAudit

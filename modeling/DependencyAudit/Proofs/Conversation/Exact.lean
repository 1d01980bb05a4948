import DependencyAudit.Proofs.Conversation
import DependencyAudit.Proofs.Terminal.Markup
import Mathlib.Data.List.Forall2

namespace DependencyAudit.Conversation

variable {α β : Type}

theorem ext_run {c d : Conversation α} (same : ∀ desk, c.run desk = d.run desk) : c = d :=
  funext same

theorem run_bind (c : Conversation α) (f : α → Conversation β) (desk : Desk) :
    (c >>= f).run desk =
      match (c.run desk).1 with
      | .ok a => (f a).run (c.run desk).2
      | .error stop => (.error stop, (c.run desk).2) := by
  change ExceptT.bindCont (m := StateM Desk) f (c.run desk).1 (c.run desk).2 = _
  cases (c.run desk).1 <;> rfl

theorem run_bind_pure (c : Conversation α) (value : α → β) (desk : Desk) :
    (c >>= fun a => pure (value a)).run desk = ((c.run desk).1.map value, (c.run desk).2) := by
  rw [run_bind]
  cases (c.run desk).1 <;> rfl

theorem forM_cons {γ : Type} (f : γ → Conversation Unit) (first : γ) (rest : List γ) :
    (first :: rest).forM f = f first >>= fun _ => rest.forM f := rfl

theorem run_forM_note {γ : Type} (event : γ → Event) (items : List γ) (desk : Desk) :
    (items.forM fun item => note (event item)).run desk =
      (.ok (), ⟨desk.answers, desk.transcript ++ items.map event⟩) := by
  induction items generalizing desk with
  | nil =>
    rw [List.map_nil, List.append_nil]
    rfl
  | cons first rest ih =>
    rw [List.map_cons, List.append_cons]
    exact ih ⟨desk.answers, desk.transcript ++ [event first]⟩

section

variable [Platform] {γ : Type} {console : Console} {markup : List Text.Point} {text : String}
  {line : γ → List Text.Point} {items : List γ} {texts : List String} {desk : Desk}

/-- These are the texts that are printed for the items, one for each. -/
def Pages (console : Console) (line : γ → List Text.Point) (items : List γ) (texts : List String) :
    Prop :=
  List.Forall₂ (fun item text => paged console (line item) = .ok text) items texts

theorem run_tell (laid : paged console markup = .ok text) (desk : Desk) :
    (tell console markup).run desk =
      (.ok (), ⟨desk.answers, desk.transcript ++ [.printed console.stream text]⟩) := by
  unfold tell
  rw [laid]
  rfl

theorem run_tell_of_error {failure : Failure} (refused : paged console markup = .error failure)
    (desk : Desk) : (tell console markup).run desk = (.error (.failed failure), desk) := by
  unfold tell
  rw [refused]
  rfl

/-- Lines are printed one after the other. -/
theorem run_forM_tell (pages : Pages console line items texts) (desk : Desk) :
    (items.forM fun item => tell console (line item)).run desk =
      (.ok (), ⟨desk.answers, desk.transcript ++ texts.map (.printed console.stream)⟩) := by
  induction pages generalizing desk with
  | nil =>
    rw [List.map_nil, List.append_nil]
    rfl
  | cons laid _ ih =>
    rw [List.map_cons, List.append_cons, forM_cons, run_bind, run_tell laid]
    exact ih ⟨desk.answers, _⟩

theorem Pages.exists_text (pages : Pages console line items texts) {item : γ}
    (member : item ∈ items) : ∃ text, paged console (line item) = .ok text := by
  induction pages with
  | nil => cases member
  | cons laid _ ih =>
    rcases List.mem_cons.mp member with rfl | later
    · exact ⟨_, laid⟩
    · exact ih later

/-- All lines are printed, or the first one that cannot be ends the conversation. -/
theorem pages_or_fault (console : Console) (line : γ → List Text.Point) (items : List γ)
    (desk : Desk) :
    (∃ texts, Pages console line items texts) ∨ ∃ item ∈ items, ∃ failure after,
      paged console (line item) = .error failure ∧
        (items.forM fun item => tell console (line item)).run desk =
          (.error (.failed failure), after) := by
  induction items generalizing desk with
  | nil => exact .inl ⟨[], .nil⟩
  | cons first rest ih =>
    rw [forM_cons, run_bind]
    cases laid : paged console (line first) with
    | ok text =>
      rw [run_tell laid]
      rcases ih _ with ⟨texts, pages⟩ | ⟨item, member, stops⟩
      · exact .inl ⟨text :: texts, .cons laid pages⟩
      · exact .inr ⟨item, List.mem_cons_of_mem first member, stops⟩
    | error failure =>
      exact .inr ⟨first, List.mem_cons_self, failure, desk, laid, by rw [run_tell_of_error laid]⟩

theorem exists_pages (laid : ∀ item ∈ items, ∃ text, paged console (line item) = .ok text) :
    ∃ texts, Pages console line items texts := by
  induction items with
  | nil => exact ⟨[], .nil⟩
  | cons first rest ih =>
    rw [List.forall_mem_cons] at laid
    obtain ⟨⟨text, here⟩, later⟩ := laid
    obtain ⟨texts, pages⟩ := ih later
    exact ⟨text :: texts, .cons here pages⟩

/-- To print texts is to print their points. -/
theorem forM_say_eq (console : Console) (line : γ → String) (items : List γ) :
    (items.forM fun item => say console (line item)) =
      items.forM fun item => tell console (Text.points (line item)) :=
  congrArg items.forM (funext fun item => say_eq_tell console (line item))

theorem exists_paged_points {markup : String} : (∃ text, paged console (Text.points markup) = .ok text) ↔
    ∃ text, Terminal.page console.width markup = .ok text := by
  simp only [paged_points, Except.mapError_eq_ok_iff]

end

/-- One round of a question that is repeated: where the answer is not understood, this is complained
about, and then it goes on. -/
def round [Platform] (console : Console) (question complaint : String) (default : α)
    (understand : String → Option α) (again : Conversation α) : Conversation α := do
  match ← ask console question with
  | none => return default
  | some line =>
    match understand line with
    | some value => return value
    | none =>
      say console complaint
      again

/-- Whatever has been done before, from these lines of input the conversation comes to this end,
leaves these lines, and runs these programs on the way. -/
def Goes (c : Conversation α) (answers : List String) (ending : Except Ending α)
    (left : List String) (calls : List Removal.Call) : Prop :=
  ∀ transcript, ∃ events,
    c.run ⟨answers, transcript⟩ = (ending, ⟨left, transcript ++ events⟩) ∧ callsIn events = calls

/-- A text cannot be printed: its markup cannot be read or drawn, or half a surrogate pair is seen of
it. -/
def IsMute : Failure → Prop
  | .markup _ | .unprintable _ => True
  | _ => False

theorem isMute_of_paged [Platform] {console : Console} {markup : List Text.Point}
    {failure : Failure} (refused : paged console markup = .error failure) : IsMute failure := by
  unfold paged at refused
  split at refused
  · obtain ⟨fault, -, rfl⟩ := Except.mapError_eq_error_iff.mp refused
    trivial
  · rcases Except.bind_eq_error_iff.mp refused with unread | ⟨shown, -, unwritten⟩
    · obtain ⟨fault, -, rfl⟩ := Except.mapError_eq_error_iff.mp unread
      trivial
    · split at unwritten
      · cases unwritten
        trivial
      · cases unwritten

/-- The conversation comes to this end, unless a text that it prints cannot be. Then, in this case
only, it stops there and has run nothing. -/
def GoesUnless (stuck : Prop) (c : Conversation α) (answers : List String)
    (ending : Except Ending α) (calls : List Removal.Call) : Prop :=
  (∃ left, Goes c answers ending left calls) ∨
    stuck ∧ ∃ failure left, IsMute failure ∧ Goes c answers (.error (.failed failure)) left []

namespace Goes

variable {c : Conversation α} {f : α → Conversation β} {answers left left' : List String}
  {calls calls' : List Removal.Call}

theorem of_pure (a : α) (answers : List String) : Goes (pure a) answers (.ok a) answers [] :=
  fun transcript => ⟨[], by rw [List.append_nil]; rfl, rfl⟩

theorem of_fail (failure : Failure) (answers : List String) :
    Goes (fail failure : Conversation α) answers (.error (.failed failure)) answers [] :=
  fun transcript => ⟨[], by rw [List.append_nil]; rfl, rfl⟩

theorem bind {a : α} {ending : Except Ending β} (first : Goes c answers (.ok a) left calls)
    (next : Goes (f a) left ending left' calls') :
    Goes (c >>= f) answers ending left' (calls ++ calls') := by
  intro transcript
  obtain ⟨events, ran, runs⟩ := first transcript
  obtain ⟨more, ran', runs'⟩ := next (transcript ++ events)
  refine ⟨events ++ more, ?_, by rw [callsIn_append, runs, runs']⟩
  rw [run_bind, ran, ← List.append_assoc, ← ran']

theorem bind_of_error {stop : Ending} (first : Goes c answers (.error stop) left calls) :
    Goes (c >>= f) answers (.error stop) left calls := by
  intro transcript
  obtain ⟨events, ran, runs⟩ := first transcript
  exact ⟨events, by rw [run_bind, ran], runs⟩

theorem of_note (event : Event) (answers : List String) :
    Goes (note event) answers (.ok ()) answers (callsIn [event]) :=
  fun _ => ⟨[event], rfl, rfl⟩

section

variable [Platform]

theorem of_tell {console : Console} {markup : List Text.Point}
    (laid : ∃ text, paged console markup = .ok text) (answers : List String) :
    Goes (tell console markup) answers (.ok ()) answers [] := by
  obtain ⟨text, laid⟩ := laid
  unfold tell
  rw [laid]
  exact (of_pure text answers).bind (of_note _ answers)

theorem of_tell_of_error {console : Console} {markup : List Text.Point} {failure : Failure}
    (refused : paged console markup = .error failure) (answers : List String) :
    Goes (tell console markup) answers (.error (.failed failure)) answers [] := by
  unfold tell
  rw [refused]
  exact (of_fail failure answers).bind_of_error

theorem of_say {console : Console} {markup : String}
    (laid : ∃ text, Terminal.page console.width markup = .ok text) (answers : List String) :
    Goes (say console markup) answers (.ok ()) answers [] := by
  rw [say_eq_tell]
  exact of_tell (exists_paged_points.mpr laid) answers

/-- Of whole lines a question takes the next one, if there is one. -/
theorem of_ask {console : Console} {question : String} (whole : console.reading = .wholeLines)
    (laid : ∃ text, Terminal.inline console.width question = .ok text) (answers : List String) :
    Goes (ask console question) answers (.ok answers.head?) answers.tail [] := by
  obtain ⟨text, laid⟩ := laid
  unfold ask
  rw [laid, whole]
  intro transcript
  cases answers with
  | nil => exact ⟨[.printed console.stream text], rfl, rfl⟩
  | cons line rest =>
    refine ⟨[.printed console.stream text, .answered line], ?_, rfl⟩
    rw [List.append_cons]
    rfl

/-- The first line that is understood answers a question that is repeated, however many lines are
not understood before it; where there is none, the default does. -/
theorem of_askAgain {console : Console} {question complaint : String} (default : α)
    (understand : String → Option α) (whole : console.reading = .wholeLines)
    (asked : ∃ text, Terminal.inline console.width question = .ok text)
    (complained : ∃ text, Terminal.page console.width complaint = .ok text) {n : Nat}
    (enough : answers.length < n) :
    ∃ left, Goes (askAgain console question complaint default understand n) answers
      (.ok ((answers.findSome? understand).getD default)) left [] := by
  induction n generalizing answers with
  | zero => cases enough
  | succ n ih =>
    have asks := of_ask whole asked answers
    cases answers with
    | nil => exact ⟨[], asks.bind (of_pure default [])⟩
    | cons line rest =>
      rw [List.findSome?_cons]
      cases understood : understand line with
      | some value =>
        refine ⟨rest, asks.bind (?_ : Goes _ _ _ _ [])⟩
        simp only [List.head?_cons, List.tail_cons, understood]
        exact of_pure value rest
      | none =>
        have enough' : rest.length < n := by simpa using enough
        obtain ⟨left, again⟩ := ih enough'
        refine ⟨left, asks.bind (?_ : Goes _ _ _ _ [])⟩
        simp only [List.head?_cons, List.tail_cons, understood]
        exact (of_say complained rest).bind again

theorem of_askUntil {console : Console} {question complaint : String} (default : α)
    (understand : String → Option α) (whole : console.reading = .wholeLines)
    (asked : ∃ text, Terminal.inline console.width question = .ok text)
    (complained : ∃ text, Terminal.page console.width complaint = .ok text)
    (answers : List String) :
    ∃ left, Goes (askUntil console question complaint default understand) answers
      (.ok ((answers.findSome? understand).getD default)) left [] := by
  obtain ⟨left, again⟩ := of_askAgain default understand whole asked complained
    (Nat.lt_succ_self answers.length)
  exact ⟨left, fun transcript => again transcript⟩

end

end Goes

section

variable [Platform] {console : Console} {question complaint : String} {desk : Desk}

theorem answers_of_ask {line : String}
    (asked : ((ask console question).run desk).1 = .ok (some line)) :
    desk.answers.length = ((ask console question).run desk).2.answers.length + 1 := by
  obtain ⟨events, -, taken, -, reads⟩ := meets_ask console question desk
  rw [taken, reads line asked, List.length_append, List.length_singleton, Nat.add_comm]

theorem answers_of_say : ((say console complaint).run desk).2.answers = desk.answers := by
  obtain ⟨events, -, taken, quiet, -⟩ := meets_say console complaint desk
  rw [taken, quiet.answers, List.nil_append]

/-- The question is repeated as long as no answer is understood: each round reads a line, so their
number needs no bound but that of the lines. -/
theorem askUntil_eq (console : Console) (question complaint : String) (default : α)
    (understand : String → Option α) :
    askUntil console question complaint default understand =
      round console question complaint default understand
        (askUntil console question complaint default understand) := by
  unfold round
  refine ext_run fun desk => ?_
  change (askAgain console question complaint default understand (desk.answers.length + 1)).run
    desk = _
  rw [askAgain, run_bind, run_bind]
  cases asked : ((ask console question).run desk).1 with
  | error stop => rfl
  | ok answer =>
    cases answer with
    | none => rfl
    | some line =>
      have fewer := answers_of_ask asked
      dsimp only
      cases understand line with
      | some value => rfl
      | none =>
        dsimp only
        rw [run_bind, run_bind]
        cases ((say console complaint).run ((ask console question).run desk).2).1 with
        | error stop => rfl
        | ok _ =>
          change _ = (askAgain console question complaint default understand
            (((say console complaint).run ((ask console question).run desk).2).2.answers.length
              + 1)).run _
          rw [answers_of_say, ← fewer]

end

namespace GoesUnless

variable {stuck : Prop} {c : Conversation α} {f : α → Conversation β}
  {answers left : List String} {calls : List Removal.Call} {ending : Except Ending β}

theorem of_goes {d : Conversation β} (goes : Goes d answers ending left calls) :
    GoesUnless stuck d answers ending calls :=
  .inl ⟨left, goes⟩

/-- What is sure to be done and runs nothing leaves the rest to what comes after it. -/
theorem after_goes {a : α} (first : Goes c answers (.ok a) left [])
    (next : GoesUnless stuck (f a) left ending calls) :
    GoesUnless stuck (c >>= f) answers ending calls := by
  rcases next with ⟨left', goes⟩ | ⟨isStuck, failure, left', mute, stops⟩
  · exact .inl ⟨left', first.bind goes⟩
  · exact .inr ⟨isStuck, failure, left', mute, first.bind stops⟩

section

variable [Platform] {console : Console} {f : Unit → Conversation β}

theorem after_tell {markup : List Text.Point}
    (laid : ¬ stuck → ∃ text, paged console markup = .ok text)
    (next : GoesUnless stuck (f ()) answers ending calls) :
    GoesUnless stuck (tell console markup >>= f) answers ending calls := by
  cases prints : paged console markup with
  | ok text => exact after_goes (.of_tell ⟨text, prints⟩ answers) next
  | error failure =>
    exact .inr ⟨Except.of_eq_error laid prints, failure, answers, isMute_of_paged prints,
      (Goes.of_tell_of_error prints answers).bind_of_error⟩

/-- Lines printed one after the other, each for one item. -/
theorem after_forM_tell {γ : Type} {items : List γ} {line : γ → List Text.Point}
    (laid : ¬ stuck → ∀ item ∈ items, ∃ text, paged console (line item) = .ok text)
    (next : GoesUnless stuck (f ()) answers ending calls) :
    GoesUnless stuck ((items.forM fun item => tell console (line item)) >>= f) answers ending
      calls := by
  induction items with
  | nil => exact after_goes (.of_pure () answers) next
  | cons first rest ih =>
    rw [forM_cons, bind_assoc]
    refine after_tell (fun free => laid free first List.mem_cons_self) (ih fun free item member => ?_)
    exact laid free item (List.mem_cons_of_mem first member)

end

end GoesUnless

end DependencyAudit.Conversation

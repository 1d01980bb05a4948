import DependencyAudit.Regex
import Mathlib.Tactic.Common

namespace DependencyAudit.Regex

variable {admits : Char → Bool} {s rest : List Char}

/-- A run takes nothing, or the first character and then a run of what follows. -/
theorem exists_run_cons_iff {c : Char} {tail : List Char} :
    (∃ run, c :: tail = run ++ rest ∧ ∀ c ∈ run, admits c) ↔
      rest = c :: tail ∨ admits c ∧ ∃ run, tail = run ++ rest ∧ ∀ c ∈ run, admits c := by
  constructor
  · intro holds
    obtain ⟨run, same, all⟩ := holds
    cases run with
    | nil => exact .inl same.symm
    | cons first run =>
      obtain ⟨rfl, rfl⟩ := List.cons.inj same
      obtain ⟨inClass, others⟩ := List.forall_mem_cons.mp all
      exact .inr ⟨inClass, run, rfl, others⟩
  · intro holds
    rcases holds with rfl | ⟨inClass, run, rfl, all⟩
    · exact ⟨[], rfl, by simp⟩
    · exact ⟨c :: run, rfl, List.forall_mem_cons.mpr ⟨inClass, all⟩⟩

theorem mem_restsOfMany :
    rest ∈ restsOfMany admits s ↔ ∃ run, s = run ++ rest ∧ ∀ c ∈ run, admits c := by
  induction s with
  | nil =>
    rw [restsOfMany, List.mem_singleton]
    constructor
    · intro left
      subst left
      exact ⟨[], rfl, by simp⟩
    · intro holds
      obtain ⟨run, same, _⟩ := holds
      exact (List.append_eq_nil_iff.mp same.symm).2
  | cons c tail ih =>
    unfold restsOfMany
    rw [exists_run_cons_iff]
    split
    next inClass => rw [List.mem_append, ih, List.mem_singleton, or_comm, and_iff_right inClass]
    next outside => rw [List.mem_singleton, or_iff_left fun holds => outside holds.1]

theorem mem_rests_many :
    rest ∈ (many admits).rests s ↔ ∃ run, s = run ++ rest ∧ ∀ c ∈ run, admits c :=
  mem_restsOfMany

theorem mem_rests_one :
    rest ∈ (one admits).rests s ↔ ∃ c, s = c :: rest ∧ admits c := by
  cases s with
  | nil => simp [rests]
  | cons first tail =>
    unfold rests
    split
    next inClass =>
      rw [List.mem_singleton]
      constructor
      · intro left
        subst left
        exact ⟨first, rfl, inClass⟩
      · intro holds
        obtain ⟨_, same, _⟩ := holds
        exact (List.cons.inj same).2.symm
    next outside =>
      constructor
      · intro member
        cases member
      · intro holds
        obtain ⟨_, same, inClass⟩ := holds
        obtain ⟨rfl, _⟩ := List.cons.inj same
        exact absurd inClass outside

theorem mem_rests_append {first second : Regex} :
    rest ∈ (first ++ second).rests s ↔ ∃ middle ∈ first.rests s, rest ∈ second.rests middle := by
  rw [rests_append, List.mem_flatMap]

theorem mem_rests_optional {pattern : Regex} :
    rest ∈ (optional pattern).rests s ↔ rest ∈ pattern.rests s ∨ rest = s := by
  rw [rests, List.mem_append, List.mem_singleton]

/-- At least one character of the class, and otherwise as many as one likes. -/
theorem mem_rests_atLeastOne :
    rest ∈ (atLeastOne admits).rests s ↔
      ∃ run, run ≠ [] ∧ s = run ++ rest ∧ ∀ c ∈ run, admits c := by
  simp only [atLeastOne, mem_rests_append, mem_rests_one, mem_rests_many]
  constructor
  · intro holds
    obtain ⟨_, ⟨c, rfl, inClass⟩, run, rfl, all⟩ := holds
    exact ⟨c :: run, List.cons_ne_nil c run, rfl, by simpa [inClass] using all⟩
  · intro holds
    obtain ⟨run, nonempty, rfl, all⟩ := holds
    cases run with
    | nil => exact absurd rfl nonempty
    | cons c run =>
      obtain ⟨inClass, others⟩ := List.forall_mem_cons.mp all
      exact ⟨run ++ rest, ⟨c, rfl, inClass⟩, run, rfl, others⟩

theorem mem_rests_word {written : String} :
    rest ∈ (word written).rests s ↔ s = written.toList ++ rest := by
  unfold word
  induction written.toList generalizing s with
  | nil => simp [rests, eq_comm]
  | cons c others ih =>
    rw [List.foldr_cons, mem_rests_append, char]
    simp only [mem_rests_one, ih, beq_iff_eq]
    constructor
    · intro holds
      obtain ⟨_, ⟨_, rfl, rfl⟩, rfl⟩ := holds
      rfl
    · intro same
      subst same
      exact ⟨_, ⟨c, rfl, rfl⟩, rfl⟩

/-- A search with backtracking succeeds exactly where some way through the pattern does. -/
theorem exists_first_iff {α : Type} {pattern : Regex} {continuation : List Char → Option α} :
    (∃ answer, pattern.first continuation s = some answer) ↔
      ∃ rest ∈ pattern.rests s, ∃ answer, continuation rest = some answer := by
  rw [first_eq]
  constructor
  · intro holds
    obtain ⟨answer, found⟩ := holds
    obtain ⟨rest, left, answered⟩ := List.exists_of_findSome?_eq_some found
    exact ⟨rest, left, answer, answered⟩
  · intro holds
    obtain ⟨rest, left, answer, answered⟩ := holds
    cases found : (pattern.rests s).findSome? continuation with
    | some other => exact ⟨other, rfl⟩
    | none =>
      rw [List.findSome?_eq_none_iff] at found
      rw [found rest left] at answered
      cases answered

/-- A run need not be cut short where nothing goes on with a character of its class. -/
theorem firstOfMany_of_outside {α : Type} {continuation : List Char → Option α}
    (outside : ∀ c rest, admits c → continuation (c :: rest) = none) (s : List Char) :
    firstOfMany admits continuation s = continuation (s.dropWhile admits) := by
  induction s with
  | nil => rfl
  | cons c rest ih =>
    by_cases inClass : admits c
    · simp [firstOfMany, inClass, ih, outside c rest inClass]
    · simp [firstOfMany, inClass]

theorem first_atLeastOne_of_outside {α : Type} {continuation : List Char → Option α}
    (outside : ∀ c rest, admits c → continuation (c :: rest) = none) (s : List Char) :
    (atLeastOne admits).first continuation s =
      if s.takeWhile admits = [] then none else continuation (s.dropWhile admits) := by
  rw [atLeastOne, first_append]
  cases s with
  | nil => rfl
  | cons c rest =>
    by_cases inClass : admits c
    · simp [first, inClass, firstOfMany_of_outside outside]
    · simp [first, inClass]

/-- All characters that the pattern can take are of a class. -/
def TakesOnly (p : Char → Prop) : Regex → Prop
  | empty => True
  | one admits => ∀ c, admits c → p c
  | many admits => ∀ c, admits c → p c
  | optional r => r.TakesOnly p
  | ahead _ => True
  | append r t => r.TakesOnly p ∧ t.TakesOnly p

theorem exists_taken_of_mem_rests {p : Char → Prop} {r : Regex} (only : r.TakesOnly p)
    (left : rest ∈ r.rests s) : ∃ taken, s = taken ++ rest ∧ ∀ c ∈ taken, p c := by
  induction r generalizing s rest with
  | empty =>
    rw [rests, List.mem_singleton] at left
    exact ⟨[], left.symm, by simp⟩
  | one admits =>
    obtain ⟨c, rfl, inClass⟩ := mem_rests_one.mp left
    exact ⟨[c], rfl, by simpa using only c inClass⟩
  | many admits =>
    obtain ⟨run, rfl, all⟩ := mem_rests_many.mp left
    exact ⟨run, rfl, fun c member => only c (all c member)⟩
  | optional r ih =>
    rcases mem_rests_optional.mp left with inner | rfl
    · exact ih only inner
    · exact ⟨[], rfl, by simp⟩
  | ahead asks =>
    have same : rest = s := by
      unfold rests at left
      split at left
      · exact List.mem_singleton.mp left
      · cases left
    exact ⟨[], same.symm, by simp⟩
  | append r t ihr iht =>
    obtain ⟨middle, first, second⟩ := mem_rests_append.mp left
    obtain ⟨taken, rfl, all⟩ := ihr only.1 first
    obtain ⟨more, rfl, all'⟩ := iht only.2 second
    refine ⟨taken ++ more, by rw [List.append_assoc], ?_⟩
    intro c member
    rcases List.mem_append.mp member with before | after
    · exact all c before
    · exact all' c after

theorem takesOnly_word {p : Char → Prop} {written : String} (all : ∀ c ∈ written.toList, p c) :
    (word written).TakesOnly p := by
  unfold word
  generalize written.toList = letters at all
  induction letters with
  | nil => exact trivial
  | cons c others ih =>
    obtain ⟨here, later⟩ := List.forall_mem_cons.mp all
    refine ⟨?_, ih later⟩
    intro other same
    rw [beq_iff_eq.mp same]
    exact here

/-- The pattern never looks at what it does not take. -/
def IsLocal : Regex → Prop
  | ahead _ => False
  | optional r => r.IsLocal
  | append r t => r.IsLocal ∧ t.IsLocal
  | _ => True

theorem isLocal_word (written : String) : (word written).IsLocal := by
  unfold word
  induction written.toList with
  | nil => exact trivial
  | cons c others ih => exact ⟨trivial, ih⟩

/-- What follows a text changes nothing in how such a pattern can be gone through. -/
theorem mem_rests_append_right {r : Regex} (isLocal : r.IsLocal) {more : List Char} :
    rest ++ more ∈ r.rests (s ++ more) ↔ rest ∈ r.rests s := by
  induction r generalizing s rest with
  | empty => simp only [rests, List.mem_singleton, List.append_left_inj]
  | one admits =>
    simp only [mem_rests_one, ← List.cons_append, List.append_left_inj]
  | many admits =>
    simp only [mem_rests_many, ← List.append_assoc, List.append_left_inj]
  | optional r ih =>
    simp only [mem_rests_optional, ih isLocal, List.append_left_inj]
  | ahead asks => exact isLocal.elim
  | append r t ihr iht =>
    have both : rest ++ more ∈ (r ++ t).rests (s ++ more) ↔ rest ∈ (r ++ t).rests s := by
      rw [mem_rests_append, mem_rests_append]
      constructor
      · intro holds
        obtain ⟨middle, first, second⟩ := holds
        obtain ⟨taken, rfl⟩ := suffix_of_mem_rests second
        rw [← List.append_assoc] at first second
        exact ⟨taken ++ rest, (ihr isLocal.1).mp first, (iht isLocal.2).mp second⟩
      · intro holds
        obtain ⟨middle, first, second⟩ := holds
        exact ⟨middle ++ more, (ihr isLocal.1).mpr first, (iht isLocal.2).mpr second⟩
    exact both

end DependencyAudit.Regex

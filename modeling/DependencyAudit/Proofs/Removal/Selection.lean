import DependencyAudit.Proofs.Except
import DependencyAudit.Removal.Selection
import Mathlib.Data.List.Basic

namespace DependencyAudit.Removal

/-- The answer is the word that picks all packages. -/
def PicksAll (answer : String) : Prop :=
  (Text.trim answer.toList).map Char.toLower = "all".toList

/-- The answer has this number among its parts, in decimal digits. -/
def Mentions (answer : String) (number : Nat) : Prop :=
  ∃ token ∈ Selection.tokens (Text.trim answer.toList),
    token.all Text.isDigit ∧ Text.decimalValue token = number

namespace Selection

theorem mem_insertIndex {n other : Nat} {indices : List Nat} :
    other ∈ insertIndex n indices ↔ other = n ∨ other ∈ indices := by
  induction indices with
  | nil => simp [insertIndex]
  | cons first rest ih =>
    unfold insertIndex
    split
    next => simp
    next =>
      split
      next same => simp [same]
      next =>
        rw [List.mem_cons, ih, List.mem_cons]
        exact or_left_comm

theorem pairwise_insertIndex {n : Nat} {indices : List Nat} (sorted : indices.Pairwise (· < ·)) :
    (insertIndex n indices).Pairwise (· < ·) := by
  induction indices with
  | nil => simp [insertIndex]
  | cons first rest ih =>
    obtain ⟨least, sortedRest⟩ := List.pairwise_cons.mp sorted
    unfold insertIndex
    split
    next before =>
      refine List.pairwise_cons.mpr ⟨?_, sorted⟩
      intro other member
      rcases List.mem_cons.mp member with rfl | later
      · exact before
      · exact Nat.lt_trans before (least other later)
    next notBefore =>
      split
      next => exact sorted
      next different =>
        refine List.pairwise_cons.mpr ⟨?_, ih sortedRest⟩
        intro other member
        rcases mem_insertIndex.mp member with rfl | later
        · omega
        · exact least other later

/-- A part of an answer picks the place of its number. -/
theorem of_index? {count n : Nat} {token : List Char}
    (read : index? count token = .ok (some n)) :
    n < count ∧ token.all Text.isDigit ∧ Text.decimalValue token = n + 1 := by
  unfold index? at read
  split at read
  next digits =>
    split at read
    · cases read
    · simp only [Except.ok.injEq] at read
      split at read
      next bounds =>
        cases read
        exact ⟨by omega, digits, by omega⟩
      next => cases read
  next => cases read

theorem ofTokens_cons {count : Nat} {token : List Char} {rest : List (List Char)} {s : Selection}
    (read : ofTokens count (token :: rest) = .ok s) :
    ∃ index others, index? count token = .ok index ∧ ofTokens count rest = .ok others ∧
      s.indices = match index with
        | some n => insertIndex n others.indices
        | none => others.indices := by
  obtain ⟨index, first, read⟩ := Except.bind_eq_ok_iff.mp read
  obtain ⟨others, later, read⟩ := Except.bind_eq_ok_iff.mp read
  refine ⟨index, others, first, later, ?_⟩
  cases index with
  | some n =>
    cases read
    rfl
  | none =>
    cases read
    rfl

theorem pairwise_ofTokens {count : Nat} {parts : List (List Char)} {s : Selection}
    (read : ofTokens count parts = .ok s) : s.indices.Pairwise (· < ·) := by
  induction parts generalizing s with
  | nil =>
    cases read
    exact .nil
  | cons token rest ih =>
    obtain ⟨index, others, _, later, same⟩ := ofTokens_cons read
    rw [same]
    cases index with
    | some n => exact pairwise_insertIndex (ih later)
    | none => exact ih later

theorem of_mem_ofTokens {count n : Nat} {parts : List (List Char)} {s : Selection}
    (read : ofTokens count parts = .ok s) (member : n ∈ s.indices) :
    n < count ∧ ∃ token ∈ parts, token.all Text.isDigit ∧ Text.decimalValue token = n + 1 := by
  induction parts generalizing s with
  | nil =>
    cases read
    cases member
  | cons token rest ih =>
    obtain ⟨index, others, first, later, same⟩ := ofTokens_cons read
    have inRest : n ∈ others.indices → n < count ∧ ∃ part ∈ token :: rest,
        part.all Text.isDigit ∧ Text.decimalValue part = n + 1 := by
      intro there
      obtain ⟨bound, part, inParts, number⟩ := ih later there
      exact ⟨bound, part, List.mem_cons_of_mem _ inParts, number⟩
    rw [same] at member
    cases index with
    | none => exact inRest member
    | some place =>
      rcases mem_insertIndex.mp member with rfl | there
      · obtain ⟨bound, number⟩ := of_index? first
        exact ⟨bound, token, List.mem_cons_self, number⟩
      · exact inRest there

/-- A part of an answer that is a number too long to be converted. -/
def IsLong (token : List Char) : Prop :=
  token.all Text.isDigit ∧ Text.digitLimit < token.length

theorem isLong_of_index? {count : Nat} {token : List Char} {number : Text.TooLong}
    (read : index? count token = .error number) : IsLong token ∧ number = ⟨token.length⟩ := by
  unfold index? at read
  split at read
  next digits =>
    split at read
    next long =>
      cases read
      exact ⟨⟨digits, long⟩, rfl⟩
    next => cases read
  next => cases read

theorem exists_isLong_of_ofTokens {count : Nat} {parts : List (List Char)} {number : Text.TooLong}
    (read : ofTokens count parts = .error number) :
    ∃ token ∈ parts, IsLong token ∧ number = ⟨token.length⟩ := by
  induction parts with
  | nil => cases read
  | cons token rest ih =>
    rcases Except.bind_eq_error_iff.mp read with here | ⟨index, -, read⟩
    · exact ⟨token, List.mem_cons_self, isLong_of_index? here⟩
    rcases Except.bind_eq_error_iff.mp read with later | ⟨others, -, read⟩
    · obtain ⟨part, inRest, long⟩ := ih later
      exact ⟨part, List.mem_cons_of_mem token inRest, long⟩
    · cases index <;> cases read

theorem exists_part_of_mem_invalid {count : Nat} {parts : List (List Char)} {s : Selection}
    (read : ofTokens count parts = .ok s) {text : String} (member : text ∈ s.invalid) :
    ∃ token ∈ parts, text = String.ofList token := by
  induction parts generalizing s with
  | nil =>
    cases read
    cases member
  | cons token rest ih =>
    obtain ⟨index, -, read⟩ := Except.bind_eq_ok_iff.mp read
    obtain ⟨others, later, read⟩ := Except.bind_eq_ok_iff.mp read
    have inRest : text ∈ others.invalid → ∃ part ∈ token :: rest, text = String.ofList part := by
      intro there
      obtain ⟨part, inParts, same⟩ := ih later there
      exact ⟨part, List.mem_cons_of_mem token inParts, same⟩
    cases index with
    | some n =>
      cases read
      exact inRest member
    | none =>
      cases read
      rcases List.mem_cons.mp member with rfl | there
      · exact ⟨token, List.mem_cons_self, rfl⟩
      · exact inRest there

/-- Only a number that is too long keeps an answer from being read. -/
theorem exists_isLong_of_parse {answer : String} {count : Nat} {number : Text.TooLong}
    (read : parse answer count = .error number) :
    ∃ token ∈ tokens (Text.trim answer.toList), IsLong token ∧ number = ⟨token.length⟩ := by
  unfold parse at read
  dsimp only at read
  split at read
  · cases read
  · exact exists_isLong_of_ofTokens read

/-- What picks nothing is a part of the answer, as it stands there. -/
theorem exists_token_of_mem_invalid {answer : String} {count : Nat} {s : Selection}
    (read : parse answer count = .ok s) {text : String} (member : text ∈ s.invalid) :
    ∃ token ∈ tokens (Text.trim answer.toList), text = String.ofList token := by
  unfold parse at read
  dsimp only at read
  split at read
  · cases read
    cases member
  · exact exists_part_of_mem_invalid read member

/-- No answer picks nothing. -/
theorem parse_empty (count : Nat) : parse "" count = .ok nothing := rfl

theorem pairwise_indices {answer : String} {count : Nat} {s : Selection}
    (read : parse answer count = .ok s) : s.indices.Pairwise (· < ·) := by
  unfold parse at read
  dsimp only at read
  split at read
  · cases read
    exact List.pairwise_lt_range
  · exact pairwise_ofTokens read

/-- Only what is listed is picked, and only by its number or with all the others. -/
theorem of_mem_indices {answer : String} {count n : Nat} {s : Selection}
    (read : parse answer count = .ok s) (member : n ∈ s.indices) :
    n < count ∧ (PicksAll answer ∨ Mentions answer (n + 1)) := by
  unfold parse at read
  dsimp only at read
  split at read
  next all =>
    cases read
    exact ⟨List.mem_range.mp member, .inl all⟩
  next =>
    obtain ⟨bound, part, inParts, number⟩ := of_mem_ofTokens read member
    exact ⟨bound, .inr ⟨part, inParts, number⟩⟩

theorem mem_pick {α : Type} {s : Selection} {names : List α} {name : α} :
    name ∈ s.pick names ↔ ∃ n ∈ s.indices, names[n]? = some name := by
  rw [pick, List.mem_filterMap]

/-- The picked ones are those at the picked places, one for each. -/
theorem map_some_pick {α : Type} {answer : String} {s : Selection} {names : List α}
    (read : parse answer names.length = .ok s) :
    (s.pick names).map some = s.indices.map (names[·]?) := by
  have inside : ∀ n ∈ s.indices, n < names.length := fun n member => (of_mem_indices read member).1
  unfold pick
  generalize s.indices = indices at inside
  induction indices with
  | nil => rfl
  | cons n rest ih =>
    obtain ⟨here, later⟩ := List.forall_mem_cons.mp inside
    rw [List.filterMap_cons, List.getElem?_eq_getElem here, List.map_cons, List.map_cons, ih later,
      List.getElem?_eq_getElem here]

/-- What is picked from an ascending list is again one. -/
theorem pairwise_pick {answer : String} {count : Nat} {s : Selection}
    (read : parse answer count = .ok s) {α : Type} [LT α] {names : List α}
    (sorted : names.Pairwise (· < ·)) : (s.pick names).Pairwise (· < ·) := by
  unfold pick
  refine (pairwise_indices read).filterMap _ ?_
  intro i j before first atFirst second atSecond
  obtain ⟨inside, rfl⟩ := List.getElem?_eq_some_iff.mp atFirst
  obtain ⟨inside', rfl⟩ := List.getElem?_eq_some_iff.mp atSecond
  exact List.pairwise_iff_getElem.mp sorted i j inside inside' before

end Selection

end DependencyAudit.Removal

import DependencyAudit.Text.Pieces
import Mathlib.Data.List.DropRight
import Mathlib.Data.List.TakeWhile

namespace DependencyAudit.Text

variable {s core blanks : List Char} {c : Char}

/-- The text neither starts nor ends with a blank. -/
structure Tight (s : List Char) : Prop where
  starts : ∀ c ∈ s.head?, isBlank c = false
  ends : ∀ c ∈ s.getLast?, isBlank c = false

/-- The text is this tight one with nothing but blanks before and after it. -/
structure Pads (s core : List Char) : Prop where
  tight : Tight core
  padded : ∃ before after, s = before ++ core ++ after ∧ ∀ c ∈ before ++ after, isBlank c = true

theorem tight_nil : Tight [] := ⟨by simp, by simp⟩

theorem trimEnd_eq_self (ends : ∀ c ∈ s.getLast?, isBlank c = false) : trimEnd s = s := by
  refine List.rdropWhile_eq_self_iff.mpr fun nonempty => ?_
  simp [ends _ (List.getLast?_eq_some_getLast nonempty)]

theorem trimEnd_append (only : ∀ c ∈ blanks, isBlank c = true)
    (ends : ∀ c ∈ s.getLast?, isBlank c = false) : trimEnd (s ++ blanks) = s := by
  have body := trimEnd_eq_self ends
  unfold trimEnd at body ⊢
  rw [List.reverse_append, List.dropWhile_append_of_pos fun c member =>
    only c (List.mem_reverse.mp member), body]

theorem trimEnd_append_takeWhile (s : List Char) :
    trimEnd s ++ (s.reverse.takeWhile isBlank).reverse = s := by
  rw [trimEnd, ← List.reverse_append, List.takeWhile_append_dropWhile, List.reverse_reverse]

theorem tight_trim (s : List Char) : Tight (trim s) := by
  constructor
  case starts =>
    intro c atHead
    have first : (trimStart s).head? = some c := by
      rw [← trimEnd_append_takeWhile (trimStart s), List.head?_append]
      exact Option.or_eq_some_iff.mpr (.inl atHead)
    have stops := List.head?_dropWhile_not isBlank s
    rw [← trimStart, first] at stops
    exact stops
  case ends =>
    intro c atEnd
    have stops := List.head?_dropWhile_not isBlank (trimStart s).reverse
    rw [trim, trimEnd, List.getLast?_reverse] at atEnd
    rw [Option.mem_def.mp atEnd] at stops
    exact stops

theorem pads_trim (s : List Char) : Pads s (trim s) := by
  refine ⟨tight_trim s, s.takeWhile isBlank,
    ((trimStart s).reverse.takeWhile isBlank).reverse, ?_, ?_⟩
  · rw [List.append_assoc, trim, trimEnd_append_takeWhile, trimStart,
      List.takeWhile_append_dropWhile]
  · intro c member
    rcases List.mem_append.mp member with before | after
    · exact List.mem_takeWhile_imp before
    · exact List.mem_takeWhile_imp (List.mem_reverse.mp after)

/-- Each text pads one tight text only. -/
theorem Pads.eq_trim (pads : Pads s core) : core = trim s := by
  obtain ⟨⟨starts, ends⟩, before, after, rfl, only⟩ := pads
  obtain ⟨onlyBefore, onlyAfter⟩ := List.forall_mem_append.mp only
  rw [trim, trimStart, List.append_assoc, List.dropWhile_append_of_pos onlyBefore]
  cases core with
  | nil => rw [List.nil_append, List.dropWhile_eq_nil_iff.mpr onlyAfter]; rfl
  | cons c more =>
    rw [List.cons_append, List.dropWhile_cons_of_neg (by simp [starts c rfl]), ← List.cons_append,
      trimEnd_append onlyAfter ends]

theorem Tight.pads (tight : Tight s) : Pads s s := ⟨tight, [], [], by simp, by simp⟩

theorem tight_iff : Tight s ↔ trim s = s := by
  constructor
  · intro tight
    exact tight.pads.eq_trim.symm
  · intro same
    exact same ▸ tight_trim s

/-- A blank more at its end does not matter to a text that is trimmed. -/
theorem trim_append_blank (blank : isBlank c = true) (s : List Char) :
    trim (s ++ [c]) = trim s := by
  obtain ⟨tight, before, after, whole, only⟩ := pads_trim s
  have pads : Pads (s ++ [c]) (trim s) := by
    refine ⟨tight, before, after ++ [c], ?_, ?_⟩
    · rw [← List.append_assoc, ← whole]
    · rw [← List.append_assoc]
      exact List.forall_mem_append.mpr ⟨only, List.forall_mem_singleton.mpr blank⟩
  exact pads.eq_trim.symm

theorem trim_eq_nil_iff : trim s = [] ↔ ∀ c ∈ s, isBlank c = true := by
  constructor
  · intro empty
    obtain ⟨-, before, after, whole, only⟩ := empty ▸ pads_trim s
    rw [whole, List.append_nil]
    exact only
  · intro only
    have padsNothing : Pads s [] := ⟨tight_nil, s, [], by simp, by simpa using only⟩
    exact padsNothing.eq_trim.symm

theorem Pads.subset (pads : Pads s core) : core ⊆ s := by
  obtain ⟨-, before, after, rfl, -⟩ := pads
  intro c member
  exact List.mem_append_left after (List.mem_append_right before member)

end DependencyAudit.Text

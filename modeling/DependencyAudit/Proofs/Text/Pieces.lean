import DependencyAudit.Text.Pieces
import Mathlib.Data.List.Basic

namespace DependencyAudit.Text

variable {separates : Char → Bool} {separator c : Char} {s piece : List Char}
  {parts : List (List Char)}

theorem pieces_append_cons (separator : separates c = true) (s rest : List Char) :
    pieces separates (s ++ c :: rest) = pieces separates s ++ pieces separates rest := by
  induction s with
  | nil => simp [pieces, separator]
  | cons d more ih =>
    rw [List.cons_append, pieces, pieces, ih]
    split
    · rfl
    · obtain ⟨piece, others, shape⟩ := List.exists_cons_of_ne_nil (pieces_ne_nil separates more)
      rw [shape]
      rfl

theorem pieces_of_free (free : ∀ c ∈ s, separates c = false) : pieces separates s = [s] := by
  induction s with
  | nil => rfl
  | cons d more ih =>
    obtain ⟨here, later⟩ := List.forall_mem_cons.mp free
    rw [pieces, ih later, here]
    rfl

/-- The pieces of a text are made of its characters, separators apart. -/
theorem mem_of_mem_pieces (member : piece ∈ pieces separates s) (inPiece : c ∈ piece) :
    c ∈ s ∧ separates c = false := by
  induction s generalizing piece with
  | nil =>
    rw [pieces, List.mem_singleton] at member
    simp [member] at inPiece
  | cons first rest ih =>
    have later : ∀ {other : List Char}, other ∈ pieces separates rest → c ∈ other →
        c ∈ first :: rest ∧ separates c = false :=
      fun other inOther => (ih other inOther).imp_left (List.mem_cons_of_mem first)
    rw [pieces] at member
    split at member
    · rcases List.mem_cons.mp member with rfl | other
      · cases inPiece
      · exact later other inPiece
    next inside =>
      split at member
      next shape => exact absurd shape (pieces_ne_nil separates rest)
      next piece others shape =>
        rcases List.mem_cons.mp member with rfl | other
        · rcases List.mem_cons.mp inPiece with rfl | inPiece
          · exact ⟨List.mem_cons_self, by simpa using inside⟩
          · exact later (by simp [shape]) inPiece
        · exact later (by simp [shape, other]) inPiece

theorem piecesAt_of_not_mem (absent : separator ∉ s) : piecesAt separator s = [s] :=
  pieces_of_free fun _ member => beq_eq_false_iff_ne.mpr fun same => absent (same ▸ member)

theorem piecesAt_append_cons (absent : separator ∉ piece) (rest : List Char) :
    piecesAt separator (piece ++ separator :: rest) = piece :: piecesAt separator rest := by
  have cut := @pieces_append_cons (· == separator) separator (beq_self_eq_true separator) piece rest
  rw [piecesAt, cut, ← piecesAt, piecesAt_of_not_mem absent]
  rfl

theorem not_mem_of_mem_piecesAt (member : piece ∈ piecesAt separator s) : separator ∉ piece := by
  intro inside
  have apart := (mem_of_mem_pieces member inside).2
  rw [beq_self_eq_true] at apart
  cases apart

/-- The first piece of a text starts with what comes before any separator. -/
theorem exists_piecesAt_append (absent : separator ∉ piece) (rest : List Char) :
    ∃ more others, piecesAt separator (piece ++ rest) = (piece ++ more) :: others := by
  induction piece with
  | nil =>
    obtain ⟨first, others, shape⟩ := List.exists_cons_of_ne_nil
      (pieces_ne_nil (· == separator) rest)
    exact ⟨first, others, shape⟩
  | cons c later ih =>
    rw [List.mem_cons, not_or] at absent
    obtain ⟨more, others, shape⟩ := ih absent.2
    unfold piecesAt at shape ⊢
    refine ⟨more, others, ?_⟩
    rw [List.cons_append, pieces, shape]
    simp [Ne.symm absent.1]

/-- What has no separator in it is in one of the pieces. -/
theorem exists_piece_of_infix (absent : separator ∉ piece) (inside : piece <:+: s) :
    ∃ whole ∈ piecesAt separator s, piece <:+: whole := by
  obtain ⟨before, after, rfl⟩ := inside
  rw [List.append_assoc]
  induction before with
  | nil =>
    obtain ⟨more, others, shape⟩ := exists_piecesAt_append absent after
    exact ⟨piece ++ more, by rw [List.nil_append, shape]; exact List.mem_cons_self,
      (List.prefix_append _ _).isInfix⟩
  | cons c before ih =>
    obtain ⟨whole, member, inside⟩ := ih
    unfold piecesAt at member ⊢
    rw [List.cons_append, pieces]
    split
    · exact ⟨whole, List.mem_cons_of_mem _ member, inside⟩
    · cases shape : pieces (· == separator) (before ++ (piece ++ after)) with
      | nil => rw [shape] at member; cases member
      | cons first others =>
        rw [shape] at member
        rcases List.mem_cons.mp member with rfl | later
        · exact ⟨c :: whole, List.mem_cons_self, inside.trans (List.suffix_cons c whole).isInfix⟩
        · exact ⟨whole, List.mem_cons_of_mem _ later, inside⟩

theorem joinWith_cons (between first : List Char) (nonempty : parts ≠ []) :
    joinWith between (first :: parts) = first ++ between ++ joinWith between parts := by
  obtain ⟨second, rest, rfl⟩ := List.exists_cons_of_ne_nil nonempty
  rfl

/-- Texts that are joined by the separator are the pieces of what comes of it. -/
theorem piecesAt_joinWith (nonempty : parts ≠ []) (absent : ∀ part ∈ parts, separator ∉ part) :
    piecesAt separator (joinWith [separator] parts) = parts := by
  induction parts with
  | nil => exact absurd rfl nonempty
  | cons first rest ih =>
    obtain ⟨here, later⟩ := List.forall_mem_cons.mp absent
    by_cases empty : rest = []
    · rw [empty, joinWith, piecesAt_of_not_mem here]
    · rw [joinWith_cons [separator] first empty, List.append_assoc, List.singleton_append,
        piecesAt_append_cons here, ih empty later]

theorem joinWith_eq_intercalate (between : List Char) (parts : List (List Char)) :
    joinWith between parts = between.intercalate parts := by
  induction parts with
  | nil => rfl
  | cons first rest ih =>
    cases rest with
    | nil => rw [joinWith, List.intercalate_singleton]
    | cons second rest => rw [joinWith, ih, List.intercalate_cons_cons]

/-- Words that are joined are the pieces of what comes of it. -/
theorem piecesAt_intercalate {between : String} (single : between.toList = [separator])
    {words : List String} (nonempty : words ≠ []) (absent : ∀ word ∈ words, separator ∉ word.toList) :
    piecesAt separator (String.intercalate between words).toList = words.map String.toList := by
  rw [String.toList_intercalate, single, ← joinWith_eq_intercalate]
  exact piecesAt_joinWith (by simpa using nonempty) (List.forall_mem_map.mpr absent)

theorem not_mem_intercalate {between : String} (apart : c ∉ between.toList)
    {words : List String} (absent : ∀ word ∈ words, c ∉ word.toList) :
    c ∉ (String.intercalate between words).toList := by
  induction words with
  | nil => simp
  | cons first rest ih =>
    obtain ⟨here, later⟩ := List.forall_mem_cons.mp absent
    cases rest with
    | nil => rwa [String.intercalate_singleton]
    | cons second rest =>
      rw [String.intercalate_cons_cons]
      simp only [String.toList_append, List.mem_append, not_or]
      exact ⟨⟨here, apart⟩, ih later⟩

theorem infix_joinWith (member : piece ∈ parts) (between : List Char) :
    piece <:+: joinWith between parts := by
  induction parts with
  | nil => cases member
  | cons first rest ih =>
    cases rest with
    | nil =>
      obtain rfl := List.mem_singleton.mp member
      exact List.infix_rfl
    | cons second others =>
      rw [joinWith, List.append_assoc]
      rcases List.mem_cons.mp member with rfl | later
      · exact (List.prefix_append _ _).isInfix
      · exact (ih later).trans ((List.suffix_append _ _).trans (List.suffix_append _ _)).isInfix

theorem infix_of_mem_piecesAt (member : piece ∈ piecesAt separator s) : piece <:+: s := by
  have inside := infix_joinWith member [separator]
  rwa [joinWith_piecesAt] at inside

theorem countP_joinWith {p : Char → Bool} {between : List Char} (plain : between.countP p = 0)
    (parts : List (List Char)) : (joinWith between parts).countP p = parts.flatten.countP p := by
  induction parts with
  | nil => rfl
  | cons first rest ih =>
    cases rest with
    | nil => simp [joinWith]
    | cons second others =>
      rw [joinWith, List.countP_append, List.countP_append, plain, ih, Nat.add_zero]
      simp only [List.flatten_cons, List.countP_append]

end DependencyAudit.Text

import DependencyAudit.Names
import DependencyAudit.Proofs.Text.Point
import Mathlib.Data.List.Lex
import Mathlib.Data.Set.Card
import Mathlib.Data.String.Basic
import Mathlib.Order.RelIso.Basic

namespace DependencyAudit

namespace Name

theorem points_injective : Function.Injective points := by
  rintro ⟨points, _⟩ ⟨others, _⟩ rfl
  rfl

theorem ofString_injective : Function.Injective ofString := fun _ _ same =>
  Text.points_injective (congrArg points same)

@[simp] theorem points_ofString (s : String) : (ofString s).points = Text.points s := rfl

@[simp] theorem between_ofString (before after s : String) :
    (ofString s).between before after = Text.points (before ++ s ++ after) := by
  simp [between]

/-- The code points of a name, by which it is ordered. -/
def codes (name : Name) : List Nat := name.points.map Text.Point.code

theorem codes_injective : Function.Injective codes :=
  (List.map_injective_iff.mpr Text.Point.code_injective).comp points_injective

instance : IsStrictTotalOrder Name (· < ·) :=
  (RelEmbedding.preimage ⟨codes, codes_injective⟩ (· < ·)).isStrictTotalOrder

end Name

namespace Names

section

variable {α : Type} [LT α] [DecidableEq α] [IsStrictTotalOrder α (· < ·)]

/-- A strictly ascending list is as long as the set of its members is large. -/
theorem encard_of_pairwise {names : List α} (sorted : names.Pairwise (· < ·)) :
    {name | name ∈ names}.encard = names.length := by
  have apart : ∀ {a b : α}, a < b → a ≠ b := fun before same => irrefl _ (same ▸ before)
  have distinct : names.Nodup := sorted.imp apart
  have members : {name | name ∈ names} = (names.toFinset : Set α) := by
    ext name
    simp
  rw [members, Set.encard_coe_eq_coe_finsetCard, List.toFinset_card_of_nodup distinct]

variable [DecidableLT α]

theorem pairwise_insert {name : α} {names : List α} (sorted : names.Pairwise (· < ·)) :
    (insert name names).Pairwise (· < ·) := by
  induction names with
  | nil => simp [insert]
  | cons first rest ih =>
    obtain ⟨least, sortedRest⟩ := List.pairwise_cons.mp sorted
    unfold insert
    split
    next before =>
      refine List.pairwise_cons.mpr ⟨?_, sorted⟩
      intro other member
      rcases List.mem_cons.mp member with rfl | later
      · exact before
      · exact IsTrans.trans _ _ _ before (least other later)
    next notBefore =>
      split
      next => exact sorted
      next different =>
        refine List.pairwise_cons.mpr ⟨?_, ih sortedRest⟩
        intro other member
        rcases mem_insert.mp member with rfl | later
        · exact ((trichotomous_of (· < ·) first other).resolve_right
            (not_or.mpr ⟨Ne.symm different, notBefore⟩))
        · exact least other later

/-- The order is that of the code points, and no name occurs twice. -/
theorem pairwise_ascending (names : List α) : (ascending names).Pairwise (· < ·) := by
  induction names with
  | nil => exact .nil
  | cons name rest ih => exact pairwise_insert ih

end

end Names

end DependencyAudit

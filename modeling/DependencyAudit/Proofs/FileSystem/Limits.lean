import DependencyAudit.FileSystem.Disk
import DependencyAudit.Proofs.Path
import Mathlib.Data.List.Basic

namespace DependencyAudit

open FileSystem

theorem Text.size_intercalate_le (names more : List String) :
    (String.intercalate "/" names).utf8ByteSize ≤
      (String.intercalate "/" (names ++ more)).utf8ByteSize := by
  induction names with
  | nil => exact Nat.zero_le _
  | cons first rest ih =>
    cases rest with
    | nil =>
      cases more with
      | nil => exact Nat.le_refl _
      | cons next later =>
        rw [List.cons_append, List.nil_append, String.intercalate_cons_cons,
          String.intercalate_singleton, String.utf8ByteSize_append, String.utf8ByteSize_append]
        omega
    | cons second rest =>
      rw [List.cons_append] at ih
      rw [List.cons_append, List.cons_append, String.intercalate_cons_cons,
        String.intercalate_cons_cons, String.utf8ByteSize_append, String.utf8ByteSize_append,
        String.utf8ByteSize_append, String.utf8ByteSize_append]
      omega

/-- The last of some names adds its own size. -/
theorem Text.exists_size_intercalate (names : List String) :
    ∃ others, ∀ name : String, (String.intercalate "/" (names ++ [name])).utf8ByteSize =
      others + name.utf8ByteSize := by
  induction names with
  | nil => exact ⟨0, fun name => by simp⟩
  | cons first rest ih =>
    obtain ⟨others, size⟩ := ih
    refine ⟨first.utf8ByteSize + "/".utf8ByteSize + others, fun name => ?_⟩
    have more : ∃ next later, rest ++ [name] = next :: later :=
      List.exists_cons_of_ne_nil (List.concat_ne_nil name rest)
    obtain ⟨next, later, shape⟩ := more
    rw [List.cons_append, shape, String.intercalate_cons_cons, ← shape, String.utf8ByteSize_append,
      String.utf8ByteSize_append, size]
    omega

namespace Path

/-- Where names lead from a path on. -/
def down (p : Path) (names : List String) : Path := ⟨p.anchor, p.names ++ names⟩

variable {p : Path} {names more : List String} {name other : String}

theorem child_down : (p.down names).child name = p.down (names ++ [name]) := by
  rw [down, child, down, List.append_assoc]

theorem down_inj : p.down names = p.down more ↔ names = more := by
  simp [down]

theorem within_down_iff : (p.down names).Within (p.down more) ↔ names <+: more := by
  constructor
  · intro within
    obtain ⟨rest, same⟩ := within
    simp only [down, mk.injEq, List.append_assoc, List.append_cancel_left_eq, true_and] at same
    exact ⟨rest, same.symm⟩
  · intro leads
    obtain ⟨rest, rfl⟩ := leads
    exact ⟨rest, by simp only [down, List.append_assoc]⟩

/-- A path that a disk can have: it is not too long, it has no special names or characters, and none
of its names is too long. -/
structure Fits (p : Path) : Prop where
  ordinary : ∀ name ∈ p.names, Disk.isEntryName name
  short : ∀ name ∈ p.names, name.utf8ByteSize ≤ nameLimit
  clean : Disk.hasNul p = false
  size : p.toText.utf8ByteSize < pathLimit

instance (p : Path) : Decidable p.Fits :=
  decidable_of_iff ((∀ name ∈ p.names, Disk.isEntryName name) ∧
      (∀ name ∈ p.names, name.utf8ByteSize ≤ nameLimit) ∧ Disk.hasNul p = false ∧
      p.toText.utf8ByteSize < pathLimit)
    ⟨fun ⟨ordinary, short, clean, size⟩ => ⟨ordinary, short, clean, size⟩,
      fun fits => ⟨fits.ordinary, fits.short, fits.clean, fits.size⟩⟩

theorem Fits.above (fits : (p.down more).Fits) (leads : names <+: more) :
    (p.down names).Fits := by
  obtain ⟨rest, rfl⟩ := leads
  have within : ∀ name ∈ (p.down names).names, name ∈ (p.down (names ++ rest)).names := by
    intro name member
    rw [down, ← List.append_assoc]
    exact List.mem_append_left rest member
  refine ⟨fun name member => fits.ordinary name (within name member),
    fun name member => fits.short name (within name member), ?_, ?_⟩
  · have clean := fits.clean
    rw [Disk.hasNul, List.any_eq_false] at clean ⊢
    exact fun name member => clean name (within name member)
  · rw [toText]
    split
    · decide
    · have shorter := Text.size_intercalate_le (p.names ++ names) rest
      have size := fits.size
      rw [toText] at size
      split at size
      next nothing nameless =>
        -- Without names, the shorter path is the current directory as well.
        simp only [down, List.append_eq_nil_iff] at nothing nameless
        exact absurd ⟨nameless.1, nameless.2.1, nameless.2.2.1⟩ nothing
      next =>
        rw [String.utf8ByteSize_append] at size ⊢
        simp only [down, ← List.append_assoc] at size ⊢
        omega

/-- A name that is no longer than another one fits where that one does. -/
theorem Fits.of_size_le (fits : (p.child other).Fits) (ordinary : Disk.isEntryName name)
    (clean : '\x00' ∉ name.toList) (shorter : name.utf8ByteSize ≤ other.utf8ByteSize) :
    (p.child name).Fits := by
  have last : other ∈ (p.child other).names := List.mem_append_right _ (List.mem_singleton_self _)
  have within : ∀ n ∈ p.names, n ∈ (p.child other).names :=
    fun n member => List.mem_append_left _ member
  refine ⟨?_, ?_, ?_, ?_⟩
  · intro n member
    rcases List.mem_append.mp member with above | here
    · exact fits.ordinary n (within n above)
    · rwa [List.mem_singleton.mp here]
  · intro n member
    rcases List.mem_append.mp member with above | here
    · exact fits.short n (within n above)
    · rw [List.mem_singleton.mp here]
      exact Nat.le_trans shorter (fits.short other last)
  · have whole := fits.clean
    rw [Disk.hasNul, List.any_eq_false] at whole ⊢
    intro n member
    rcases List.mem_append.mp member with above | here
    · exact whole n (within n above)
    · rw [List.mem_singleton.mp here]
      simpa using clean
  · obtain ⟨others, sizes⟩ := Text.exists_size_intercalate p.names
    have size := fits.size
    have named : ∀ n, ¬ ((p.child n).anchor = .here ∧ (p.child n).names = []) :=
      fun n nothing => List.concat_ne_nil n p.names nothing.2
    rw [toText, if_neg (named _), String.utf8ByteSize_append] at size ⊢
    have here : (String.intercalate "/" (p.child other).names).utf8ByteSize = _ := sizes other
    have here' : (String.intercalate "/" (p.child name).names).utf8ByteSize = _ := sizes name
    have anchor : (p.child name).anchor = (p.child other).anchor := rfl
    rw [here] at size
    rw [here', anchor]
    omega

end Path

end DependencyAudit

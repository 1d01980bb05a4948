import DependencyAudit.Text.Point
import Mathlib.Data.List.Basic
import Mathlib.Tactic.Common
import Mathlib.Tactic.IntervalCases

namespace DependencyAudit.Text

theorem hexValue?_hexDigit {n : Nat} (small : n < 16) : hexValue? (hexDigit n) = some n := by
  interval_cases n
  all_goals rfl

/-- As many digits of a number are read back as have been written. -/
theorem hexNumber?_hex (width n : Nat) : hexNumber? (hex width n) = some (n % 16 ^ width) := by
  induction width generalizing n with
  | zero =>
    rw [pow_zero, Nat.mod_one]
    rfl
  | succ width ih =>
    have high := ih (n / 16)
    have low := hexValue?_hexDigit (Nat.mod_lt n (by omega : 0 < 16))
    unfold hexNumber? at high ⊢
    rw [hex, List.foldlM_append, high]
    have digits : n % 16 ^ (width + 1) = 16 * (n / 16 % 16 ^ width) + n % 16 := by
      rw [pow_succ', Nat.mod_mul, Nat.add_comm]
    simp [low, digits]

theorem toNat_valid (c : Char) :
    c.toNat < 0xD800 ∨ 0xE000 ≤ c.toNat ∧ c.toNat < 0x110000 := by
  have valid := c.valid
  simp only [UInt32.isValidChar, Nat.isValidChar] at valid
  simp only [Char.toNat]
  omega

theorem isValidChar_toNat (c : Char) : c.toNat.isValidChar := by
  have valid := toNat_valid c
  unfold Nat.isValidChar
  omega

theorem toNat_ofNat_of_valid {n : Nat} (valid : n.isValidChar) : (Char.ofNat n).toNat = n := by
  rw [Char.ofNat, dif_pos valid]
  rfl

namespace Point

theorem code_injective : Function.Injective code := by
  intro p q same
  rcases p with c | bits | bits <;> rcases q with d | bits' | bits'
  case char.char => exact congrArg char (Char.toNat_inj.mp same)
  case high.high =>
    have bits_eq : bits = bits' := Fin.ext (Nat.add_left_cancel same)
    rw [bits_eq]
  case low.low =>
    have bits_eq : bits = bits' := Fin.ext (Nat.add_left_cancel same)
    rw [bits_eq]
  -- A character is no surrogate, and the two halves of a pair are apart.
  case char.high | char.low =>
    have valid := toNat_valid c
    simp only [code] at same
    omega
  case high.char | low.char =>
    have valid := toNat_valid d
    simp only [code] at same
    omega
  all_goals
    simp only [code] at same
    omega

@[simp] theorem ofUnit_toNat (c : Char) : ofUnit c.toNat = char c := by
  rw [ofUnit, if_pos (isValidChar_toNat c), Char.ofNat_toNat]

@[simp] theorem ofUnit_high (bits : Fin 0x400) : ofUnit (0xD800 + bits) = high bits := by
  have noChar : ¬ Nat.isValidChar (0xD800 + bits) := by
    unfold Nat.isValidChar
    omega
  rw [ofUnit, if_neg noChar, if_pos (by omega), Nat.add_sub_cancel_left]
  exact congrArg high (Fin.ofNat_val_eq_self bits)

@[simp] theorem ofUnit_low (bits : Fin 0x400) : ofUnit (0xDC00 + bits) = low bits := by
  have noChar : ¬ Nat.isValidChar (0xDC00 + bits) := by
    unfold Nat.isValidChar
    omega
  rw [ofUnit, if_neg noChar, if_neg (by omega), Nat.add_sub_cancel_left]
  exact congrArg low (Fin.ofNat_val_eq_self bits)

theorem char_injective : Function.Injective char := fun _ _ => char.inj

end Point

theorem points_injective : Function.Injective points := fun _ _ same =>
  String.toList_inj.mp (List.map_injective_iff.mpr Point.char_injective same)

@[simp] theorem points_append (s t : String) : points (s ++ t) = points s ++ points t := by
  rw [points, String.toList_append, List.map_append]
  rfl

theorem mapM_char?_eq_some_iff {points : List Point} {s : List Char} :
    points.mapM Point.char? = some s ↔ points = s.map .char := by
  induction points generalizing s with
  | nil => cases s <;> simp
  | cons p rest ih =>
    rw [List.mapM_cons]
    cases p with
    | high _ | low _ => cases s <;> simp [Point.char?]
    | char c =>
      cases s with
      | nil => simp [Point.char?, Option.bind_eq_some_iff]
      | cons d others =>
        simp only [Point.char?, bind, Option.bind_some, Option.bind_eq_some_iff, pure,
          Option.some.injEq, List.cons.injEq, ih, List.map_cons, Point.char.injEq]
        constructor
        · rintro ⟨found, rfl, rfl, rfl⟩
          exact ⟨rfl, rfl⟩
        · rintro ⟨rfl, rfl⟩
          exact ⟨others, rfl, rfl, rfl⟩

theorem ofPoints?_eq_some_iff {list : List Point} {s : String} :
    ofPoints? list = some s ↔ list = points s := by
  rw [ofPoints?, Option.map_eq_some_iff]
  constructor
  · rintro ⟨chars, shape, rfl⟩
    rw [points, String.toList_ofList]
    exact mapM_char?_eq_some_iff.mp shape
  · intro same
    exact ⟨s.toList, mapM_char?_eq_some_iff.mpr same, String.ofList_toList⟩

@[simp] theorem ofPoints?_points (s : String) : ofPoints? (points s) = some s :=
  ofPoints?_eq_some_iff.mpr rfl

end DependencyAudit.Text

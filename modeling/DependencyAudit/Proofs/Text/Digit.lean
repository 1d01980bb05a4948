import DependencyAudit.Text.Digit
import Mathlib.Data.List.Basic

namespace DependencyAudit.Text

/-- Whether all characters of a text have a property is decided by those of the text, not by trying
all characters that there are. -/
instance decidableForallMem (p : Char → Prop) [DecidablePred p] (s : List Char) :
    Decidable (∀ c ∈ s, p c) :=
  List.decidableBAll p s

theorem range_of_isDigit {c : Char} (digit : c.isDigit = true) :
    0x30 ≤ c.toNat ∧ c.toNat ≤ 0x30 + 9 := by
  simp only [Char.isDigit, Bool.and_eq_true, decide_eq_true_eq, UInt32.le_iff_toNat_le] at digit
  exact digit

theorem digitValue?_of_isDigit {c : Char} (digit : c.isDigit = true) :
    digitValue? c = some (c.toNat - '0'.toNat) := by
  obtain ⟨low, high⟩ := range_of_isDigit digit
  unfold digitValue? zeros
  rw [List.find?_cons_of_pos (by simp [low, high])]
  rfl

theorem isDigit_of_mem_toDigits {n : Nat} {c : Char} (member : c ∈ Nat.toDigits 10 n) :
    isDigit c = true := by
  rw [isDigit, digitValue?_of_isDigit (Nat.isDigit_of_mem_toDigits (by omega) (by omega) member)]
  rfl

theorem decimalValue_of_isDigit {digits : List Char} (all : ∀ c ∈ digits, c.isDigit = true) :
    decimalValue digits = Nat.ofDigitChars 10 digits 0 := by
  unfold decimalValue Nat.ofDigitChars
  refine List.foldl_ext _ _ _ fun n c member => ?_
  rw [digitValue?_of_isDigit (all c member)]
  rfl

/-- A number is read back from its digits. -/
theorem decimalValue_toDigits (n : Nat) : decimalValue (Nat.toDigits 10 n) = n := by
  rw [decimalValue_of_isDigit fun _ => Nat.isDigit_of_mem_toDigits (by omega) (by omega),
    Nat.ofDigitChars_ten_toDigits]

end DependencyAudit.Text

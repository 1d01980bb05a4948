import DependencyAudit.Proofs.Except
import DependencyAudit.Text.Utf8
import Mathlib.Tactic.IntervalCases

namespace DependencyAudit.Text

/-- A text in UTF-8. -/
def encode (s : List Char) : List UInt8 := s.flatMap String.utf8EncodeChar

section

variable {owed low high bits : Nat} {taken rest : List UInt8} {byte : UInt8}

theorem utf8Parts_last (fits : low ≤ byte.toNat ∧ byte.toNat ≤ high) :
    utf8Parts (.within 1 low high bits taken) (byte :: rest) =
      .char (Char.ofNat (bits * 0x40 + byte.toNat % 0x40)) :: utf8Parts .start rest := by
  rw [utf8Parts, if_pos fits, if_pos (Nat.le_refl 1)]

theorem utf8Parts_more (several : 1 < owed) (fits : low ≤ byte.toNat ∧ byte.toNat ≤ high) :
    utf8Parts (.within owed low high bits taken) (byte :: rest) =
      utf8Parts (.within (owed - 1) 0x80 0xBF (bits * 0x40 + byte.toNat % 0x40) (byte :: taken))
        rest := by
  rw [utf8Parts, if_pos fits, if_neg (by omega)]

theorem utf8Parts_of_char {c : Char} (first : firstByte byte = .inl (.char c)) :
    utf8Parts .start (byte :: rest) = .char c :: utf8Parts .start rest := by
  rw [utf8Parts, first]

theorem utf8Parts_of_state {state : Utf8State} (first : firstByte byte = .inr state) :
    utf8Parts .start (byte :: rest) = utf8Parts state rest := by
  rw [utf8Parts, first]

end

theorem toNat_ofNat {n : Nat} (small : n < 256) : (UInt8.ofNat n).toNat = n := by
  rw [UInt8.toNat_ofNat', Nat.mod_eq_of_lt small]

/-- The bounds of a second byte, by what is left of the first one. -/
def secondBounds (bytes lead : Nat) : Nat × Nat :=
  if bytes = 3 ∧ lead = 0 then (0xA0, 0xBF)
  else if bytes = 3 ∧ lead = 0xD then (0x80, 0x9F)
  else if bytes = 4 ∧ lead = 0 then (0x90, 0xBF)
  else if bytes = 4 ∧ lead = 4 then (0x80, 0x8F)
  else (0x80, 0xBF)

theorem firstByte_two {lead : Nat} (least : 2 ≤ lead) (most : lead < 0x20) :
    firstByte (UInt8.ofNat (lead + 0xC0)) =
      .inr (.within 1 0x80 0xBF lead [UInt8.ofNat (lead + 0xC0)]) := by
  have value := toNat_ofNat (n := lead + 0xC0) (by omega)
  have bits : (lead + 0xC0) % 0x20 = lead := by omega
  unfold firstByte
  simp only [value, bits]
  rw [if_neg (by omega), if_neg (by omega), if_pos (by omega)]

theorem firstByte_three {lead : Nat} (most : lead < 0x10) :
    firstByte (UInt8.ofNat (lead + 0xE0)) =
      .inr (.within 2 (secondBounds 3 lead).1 (secondBounds 3 lead).2 lead
        [UInt8.ofNat (lead + 0xE0)]) := by
  have value := toNat_ofNat (n := lead + 0xE0) (by omega)
  have bits : (lead + 0xE0) % 0x10 = lead := by omega
  unfold firstByte
  simp only [value, bits]
  rw [if_neg (by omega), if_neg (by omega), if_neg (by omega)]
  by_cases zero : lead = 0
  · subst zero
    rfl
  · by_cases surrogate : lead = 0xD
    · subst surrogate
      rfl
    · rw [if_neg (by omega), if_neg (by omega), if_pos (by omega)]
      simp [secondBounds, zero, surrogate]

theorem firstByte_four {lead : Nat} (most : lead ≤ 4) :
    firstByte (UInt8.ofNat (lead + 0xF0)) =
      .inr (.within 3 (secondBounds 4 lead).1 (secondBounds 4 lead).2 lead
        [UInt8.ofNat (lead + 0xF0)]) := by
  interval_cases lead <;> rfl

/-- What a later byte of a character holds of it. -/
theorem toNat_later {n : Nat} :
    (0x80 ≤ (UInt8.ofNat (n % 0x40 + 0x80)).toNat ∧ (UInt8.ofNat (n % 0x40 + 0x80)).toNat ≤ 0xBF) ∧
      (UInt8.ofNat (n % 0x40 + 0x80)).toNat % 0x40 = n % 0x40 := by
  rw [toNat_ofNat (by omega)]
  omega

/-- The bytes of a character are read as that character, whatever follows them. -/
theorem utf8Parts_encodeChar (c : Char) (rest : List UInt8) :
    utf8Parts .start (String.utf8EncodeChar c ++ rest) = .char c :: utf8Parts .start rest := by
  have same : Char.ofNat c.val.toNat = c := Char.ofNat_toNat c
  have valid : c.val.toNat < 0xD800 ∨ 0xDFFF < c.val.toNat ∧ c.val.toNat < 0x110000 := c.valid
  unfold String.utf8EncodeChar
  generalize c.val.toNat = v at same valid
  obtain ⟨within, bits⟩ := toNat_later (n := v)
  obtain ⟨within₁, bits₁⟩ := toNat_later (n := v / 0x40)
  obtain ⟨within₂, bits₂⟩ := toNat_later (n := v / 0x1000)
  dsimp only
  split
  next one =>
    refine utf8Parts_of_char ?_
    rw [firstByte, toNat_ofNat (by omega), if_pos (by omega), same]
  split
  next two =>
    have lead : v / 64 % 32 = v / 64 := by omega
    rw [lead, List.cons_append, utf8Parts_of_state (firstByte_two (by omega) (by omega)),
      List.cons_append, utf8Parts_last within, bits, show v / 64 * 64 + v % 64 = v by omega, same]
    rfl
  split
  next three =>
    have lead : v / 4096 % 16 = v / 4096 := by omega
    have second : (secondBounds 3 (v / 4096)).1 ≤ (UInt8.ofNat (v / 64 % 64 + 128)).toNat ∧
        (UInt8.ofNat (v / 64 % 64 + 128)).toNat ≤ (secondBounds 3 (v / 4096)).2 := by
      rw [toNat_ofNat (by omega)]
      unfold secondBounds
      split_ifs <;> simp only <;> omega
    rw [lead, List.cons_append, utf8Parts_of_state (firstByte_three (by omega)),
      List.cons_append, utf8Parts_more (by omega) second, bits₁, List.cons_append,
      utf8Parts_last within, bits,
      show (v / 4096 * 64 + v / 64 % 64) * 64 + v % 64 = v by omega, same]
    rfl
  next four =>
    have lead : v / 262144 % 8 = v / 262144 := by omega
    have second : (secondBounds 4 (v / 262144)).1 ≤ (UInt8.ofNat (v / 4096 % 64 + 128)).toNat ∧
        (UInt8.ofNat (v / 4096 % 64 + 128)).toNat ≤ (secondBounds 4 (v / 262144)).2 := by
      rw [toNat_ofNat (by omega)]
      unfold secondBounds
      split_ifs <;> simp only <;> omega
    rw [lead, List.cons_append, utf8Parts_of_state (firstByte_four (by omega)),
      List.cons_append, utf8Parts_more (by omega) second, bits₂, List.cons_append,
      utf8Parts_more (by omega) within₁, bits₁, List.cons_append, utf8Parts_last within, bits,
      show ((v / 262144 * 64 + v / 4096 % 64) * 64 + v / 64 % 64) * 64 + v % 64 = v by omega, same]
    rfl

/-- What has been encoded is decoded to itself. -/
theorem decodeLossy_encode (s : List Char) : decodeLossy (encode s) = s := by
  unfold decodeLossy
  induction s with
  | nil => rfl
  | cons c rest ih =>
    rw [encode, List.flatMap_cons, utf8Parts_encodeChar, List.map_cons]
    exact congrArg (c :: ·) ih

theorem map_of_textOfParts {parts : List Utf8Part} {position : Nat} {s : List Char}
    (made : textOfParts position parts = .ok s) : parts = s.map .char := by
  induction parts generalizing position s with
  | nil =>
    cases made
    rfl
  | cons part rest ih =>
    cases part with
    | char c =>
      obtain ⟨others, later, same⟩ := Except.bind_eq_ok_iff.mp made
      cases same
      rw [ih later]
      rfl
    | invalid bytes reason => cases made

/-- Bytes that are a text throughout are decoded to it in either way. -/
theorem decodeLossy_of_decodeStrict {bytes : List UInt8} {s : List Char}
    (decoded : decodeStrict bytes = .ok s) : decodeLossy bytes = s := by
  rw [decodeLossy, map_of_textOfParts decoded, List.map_map]
  exact List.map_id s

/-- The text with a carriage return before each line feed. -/
def withReturns (s : List Char) : List Char :=
  s.flatMap fun c => if c = '\n' then ['\r', '\n'] else [c]

theorem unifyLineEnds_cons {c : Char} (other : c ≠ '\r') (rest : List Char) :
    unifyLineEnds (c :: rest) = c :: unifyLineEnds rest := by
  rw [unifyLineEnds]
  · rintro _ rfl
    exact absurd rfl other
  · rintro rfl
    exact absurd rfl other

/-- Without carriage returns there is nothing to unify. -/
theorem unifyLineEnds_eq_self {s : List Char} (plain : '\r' ∉ s) : unifyLineEnds s = s := by
  induction s with
  | nil => rfl
  | cons c rest ih =>
    rw [List.mem_cons, not_or] at plain
    rw [unifyLineEnds_cons (Ne.symm plain.1), ih plain.2]

/-- Line ends of two characters are those of one. -/
theorem unifyLineEnds_withReturns {s : List Char} (plain : '\r' ∉ s) :
    unifyLineEnds (withReturns s) = s := by
  induction s with
  | nil => rfl
  | cons c rest ih =>
    rw [List.mem_cons, not_or] at plain
    rw [withReturns, List.flatMap_cons, ← withReturns]
    split
    next feed =>
      rw [feed, List.cons_append, List.cons_append, List.nil_append, unifyLineEnds, ih plain.2]
    next =>
      rw [List.cons_append, List.nil_append, unifyLineEnds_cons (Ne.symm plain.1), ih plain.2]

end DependencyAudit.Text

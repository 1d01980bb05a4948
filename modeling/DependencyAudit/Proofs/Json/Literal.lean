import DependencyAudit.Json.Literal
import DependencyAudit.Json.Reader
import DependencyAudit.Proofs.Names
import Mathlib.Tactic.SplitIfs

namespace DependencyAudit.Json

open Text (Point)

/-- What the 16-bit units of a point are read as, as an escape names them. -/
def unitsOf : Point → List Point
  | .char c =>
    if c.toNat < 0x10000 then [.char c]
    else
      let above := c.toNat - 0x10000
      [.ofUnit (0xD800 + above / 0x400), .ofUnit (0xDC00 + above % 0x400)]
  | half => [half]

theorem unitsOf_high (bits : Fin 0x400) : unitsOf (.high bits) = [.high bits] := rfl

theorem unitsOf_low (bits : Fin 0x400) : unitsOf (.low bits) = [.low bits] := rfl

variable {opened rest left : List Char} {points : List Point}

theorem rest_ne_nil_of_readPoints (read : readPoints opened rest = .ok (points, left)) :
    rest ≠ [] := by
  intro empty
  subst empty
  cases read

theorem readPoints_unitEscape {n : Nat} (small : n < 0x10000)
    (read : readPoints opened rest = .ok (points, left)) :
    readPoints opened (unitEscape n ++ rest) = .ok (.ofUnit n :: points, left) := by
  obtain ⟨next, others, rfl⟩ := List.exists_cons_of_ne_nil (rest_ne_nil_of_readPoints read)
  have number := Text.hexNumber?_hex 4 n
  rw [Nat.mod_eq_of_lt (by simpa using small)] at number
  have shape : Text.hex 4 n = [Text.hexDigit (n / 16 / 16 / 16 % 16),
    Text.hexDigit (n / 16 / 16 % 16), Text.hexDigit (n / 16 % 16), Text.hexDigit (n % 16)] := rfl
  rw [shape] at number
  rw [unitEscape, shape]
  simp only [List.cons_append, List.nil_append]
  rw [readPoints]
  · rw [read]
    rfl
  · exact number

theorem readPoints_shortEscape {c plain : Char} (notUnit : c ≠ 'u')
    (short : shortEscape? c = some plain)
    (read : readPoints opened rest = .ok (points, left)) :
    readPoints opened ('\\' :: c :: rest) = .ok (.char plain :: points, left) := by
  rw [readPoints]
  · simp only [short, read]
    rfl
  · simp [notUnit]
  · simp [notUnit]

theorem readPoints_plain {c : Char} (notQuote : c ≠ '"') (notBackslash : c ≠ '\\')
    (shown : 0x20 ≤ c.toNat) (read : readPoints opened rest = .ok (points, left)) :
    readPoints opened (c :: rest) = .ok (.char c :: points, left) := by
  rw [readPoints]
  · rw [if_neg (Nat.not_lt.mpr shown), read]
    rfl
  all_goals simp [notQuote, notBackslash]

/-- A character of a literal is read as its units. -/
theorem readPoints_literalChar (c : Char) (read : readPoints opened rest = .ok (points, left)) :
    readPoints opened (literalChar c ++ rest) = .ok (unitsOf (.char c) ++ points, left) := by
  have one : c.toNat < 0x10000 → unitsOf (.char c) = [.char c] := fun small => if_pos small
  unfold literalChar
  split_ifs with special lineFeed carriageReturn tab backspace formFeed shown small
  · rcases special with rfl | rfl
    · exact readPoints_shortEscape (by decide) rfl read
    · exact readPoints_shortEscape (by decide) rfl read
  · exact lineFeed ▸ readPoints_shortEscape (by decide) rfl read
  · exact carriageReturn ▸ readPoints_shortEscape (by decide) rfl read
  · exact tab ▸ readPoints_shortEscape (by decide) rfl read
  · exact backspace ▸ readPoints_shortEscape (by decide) rfl read
  · exact formFeed ▸ readPoints_shortEscape (by decide) rfl read
  · rw [not_or] at special
    rw [one (by omega)]
    exact readPoints_plain special.1 special.2 shown.1 read
  · rw [one small, ← Point.ofUnit_toNat]
    exact readPoints_unitEscape small read
  · have bound := Text.toNat_valid c
    rw [unitsOf, if_neg small]
    dsimp only
    rw [List.append_assoc]
    exact readPoints_unitEscape (by omega) (readPoints_unitEscape (by omega) read)

theorem readPoints_literalPoint (p : Point) (read : readPoints opened rest = .ok (points, left)) :
    readPoints opened (literalPoint p ++ rest) = .ok (unitsOf p ++ points, left) := by
  cases p with
  | char c => exact readPoints_literalChar c read
  | high bits =>
    have unit := readPoints_unitEscape (n := 0xD800 + bits) (by omega) read
    rwa [Point.ofUnit_high] at unit
  | low bits =>
    have unit := readPoints_unitEscape (n := 0xDC00 + bits) (by omega) read
    rwa [Point.ofUnit_low] at unit

theorem readPoints_literal (list : List Point) (rest : List Char) :
    readPoints opened (list.flatMap literalPoint ++ '"' :: rest) =
      .ok (list.flatMap unitsOf, rest) := by
  induction list with
  | nil => simp [readPoints]
  | cons p others ih =>
    rw [List.flatMap_cons, List.flatMap_cons, List.append_assoc]
    exact readPoints_literalPoint p ih

/-- The units of a character beyond the first 0x10000 are the halves that name it. -/
theorem exists_unitsOf_char {c : Char} (large : ¬ c.toNat < 0x10000) :
    ∃ high low, unitsOf (.char c) = [.high high, .low low] ∧ Text.ofPair high low = c := by
  have valid := Text.toNat_valid c
  have above : (c.toNat - 0x10000) / 0x400 < 0x400 := by omega
  have below : (c.toNat - 0x10000) % 0x400 < 0x400 := by omega
  refine ⟨⟨_, above⟩, ⟨_, below⟩, ?_, ?_⟩
  · rw [unitsOf, if_neg large, ← Point.ofUnit_high, ← Point.ofUnit_low]
  · have joined : 0x10000 + (c.toNat - 0x10000) / 0x400 * 0x400 + (c.toNat - 0x10000) % 0x400 =
        c.toNat := by omega
    rw [Text.ofPair, joined, Char.ofNat_toNat]

/-- The units of a character are joined to it again. -/
theorem joinPairs_unitsOf_char (c : Char) (rest : List Point) :
    Text.joinPairs (unitsOf (.char c) ++ rest) = .char c :: Text.joinPairs rest := by
  by_cases small : c.toNat < 0x10000
  · rw [unitsOf, if_pos small, List.singleton_append, Text.joinPairs_char]
  · obtain ⟨high, low, units, pair⟩ := exists_unitsOf_char small
    rw [units, List.cons_append, List.singleton_append, Text.joinPairs, pair]

/-- Units do not start with a low half, unless their points do. -/
theorem head?_flatMap_unitsOf_ne_low {list : List Point} (bits : Fin 0x400)
    (apart : list.head? ≠ some (.low bits)) :
    (list.flatMap unitsOf).head? ≠ some (.low bits) := by
  cases list with
  | nil => simp
  | cons p rest =>
    cases p with
    | char c =>
      by_cases small : c.toNat < 0x10000
      · simp [unitsOf, small]
      · obtain ⟨_, _, units, -⟩ := exists_unitsOf_char small
        simp [units]
    | high _ => simp [unitsOf_high]
    | low _ => simpa [unitsOf_low] using apart

/-- Joining takes units and points for the same. -/
theorem joinPairs_flatMap_unitsOf (list : List Point) :
    Text.joinPairs (list.flatMap unitsOf) = Text.joinPairs list := by
  fun_induction Text.joinPairs list with
  | case1 high low rest ih =>
    rw [List.flatMap_cons, List.flatMap_cons, unitsOf_high, unitsOf_low, List.singleton_append,
      List.singleton_append, Text.joinPairs, ih]
  | case2 p rest noPair ih =>
    rw [List.flatMap_cons]
    cases p with
    | char c => rw [joinPairs_unitsOf_char, ih]
    | low bits => rw [unitsOf_low, List.singleton_append, Text.joinPairs_low, ih]
    | high bits =>
      rw [unitsOf_high, List.singleton_append, Text.joinPairs, ih]
      intro high low others same shape
      have first := congrArg List.head? shape
      refine head?_flatMap_unitsOf_ne_low low ?_ first
      intro next
      obtain ⟨others, rfl⟩ := List.head?_eq_some_iff.mp next
      exact noPair bits low others rfl rfl
  | case3 => rfl

theorem readString_literal (name : Name) (rest : List Char) :
    readString (name.points.flatMap literalPoint ++ '"' :: rest) = .ok (name, rest) := by
  have read := @readPoints_literal ('"' :: (name.points.flatMap literalPoint ++ '"' :: rest))
    name.points rest
  rw [readString, read]
  have joined : Name.ofPoints (name.points.flatMap unitsOf) = name :=
    Name.points_injective ((joinPairs_flatMap_unitsOf name.points).trans name.joined)
  exact congrArg (fun found => Except.ok (found, rest)) joined

theorem readValue_literal (depth : Nat) (name : Name) (rest : List Char) :
    readValue depth (literal name.points ++ rest) = .ok (.text name, rest) := by
  have shape : literal name.points ++ rest =
      '"' :: (name.points.flatMap literalPoint ++ '"' :: rest) := by
    simp [literal]
  rw [shape, readValue, readString_literal]
  rfl

end DependencyAudit.Json

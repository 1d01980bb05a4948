import DependencyAudit.Proofs.Json.Literal
import DependencyAudit.Text.Pieces
import Mathlib.Data.List.TakeWhile

namespace DependencyAudit.Json

variable {rest : List Char}

/-- Only zero is written with a zero in front. -/
theorem head?_toDigits_ne_zero {n : Nat} (positive : 0 < n) :
    (Nat.toDigits 10 n).head? ≠ some '0' := by
  induction n using Nat.strongRecOn with
  | _ n ih =>
    by_cases small : n < 10
    · rw [Nat.toDigits_of_lt_base small]
      interval_cases n
      all_goals decide
    · have shorter := ih (n / 10) (by omega) (by omega)
      obtain ⟨first, others, shape⟩ := List.exists_cons_of_ne_nil (@Nat.toDigits_ne_nil (n / 10) 10)
      rw [Nat.toDigits_of_base_le (by omega) (by omega), shape]
      rw [shape] at shorter
      exact shorter

theorem isDigit_of_mem_toDigits {n : Nat} {c : Char} (member : c ∈ Nat.toDigits 10 n) :
    c.isDigit = true := Nat.isDigit_of_mem_toDigits (by omega) (by omega) member

theorem ne_of_isDigit {c other : Char} (digit : c.isDigit = true)
    (noDigit : other.isDigit = false) : c ≠ other := by
  rintro rfl
  rw [digit] at noDigit
  cases noDigit

/-- No space is left out in front of a number. -/
theorem skipSpace_toDigits (n : Nat) :
    skipSpace (Nat.toDigits 10 n ++ rest) = Nat.toDigits 10 n ++ rest := by
  have digits : ∀ c ∈ Nat.toDigits 10 n, c.isDigit = true := fun _ => isDigit_of_mem_toDigits
  obtain ⟨c, others, shape⟩ := List.exists_cons_of_ne_nil (@Nat.toDigits_ne_nil n 10)
  rw [shape] at digits ⊢
  have apart := fun other => @ne_of_isDigit c other (digits c List.mem_cons_self)
  have noSpace : isSpace c = false := by
    simp [isSpace, apart ' ' rfl, apart '\t' rfl, apart '\n' rfl, apart '\r' rfl]
  simp [skipSpace, noSpace]

theorem wholeDigits?_toDigits (n : Nat) {stop : Char} (ends : stop.isDigit = false) :
    wholeDigits? (Nat.toDigits 10 n ++ stop :: rest) = some (Nat.toDigits 10 n, stop :: rest) := by
  rcases Nat.eq_zero_or_pos n with rfl | positive
  · rfl
  · have notZero := head?_toDigits_ne_zero positive
    have digits : ∀ c ∈ Nat.toDigits 10 n, c.isDigit = true := fun _ => isDigit_of_mem_toDigits
    cases shape : Nat.toDigits 10 n with
    | nil => exact absurd shape Nat.toDigits_ne_nil
    | cons c others =>
      rw [shape] at notZero digits
      obtain ⟨first, later⟩ := List.forall_mem_cons.mp digits
      have other : c ≠ '0' := by simpa using notZero
      rw [List.cons_append, wholeDigits?]
      · rw [if_pos first, List.takeWhile_append_of_pos later, List.dropWhile_append_of_pos later]
        simp [ends]
      · simpa using other

theorem numberOf_toDigits (n : Nat) : numberOf (Nat.toDigits 10 n) = n :=
  Nat.ofDigitChars_ten_toDigits

theorem readUnsigned_toDigits (start : List Char) {n : Nat}
    (short : (Nat.toDigits 10 n).length ≤ Text.digitLimit) :
    readUnsigned false start (Nat.toDigits 10 n ++ '\n' :: rest) =
      .ok (.whole n, '\n' :: rest) := by
  have digits := @wholeDigits?_toDigits rest n '\n' rfl
  have fraction : fractionDigits ('\n' :: rest) = ([], '\n' :: rest) := rfl
  have exponent : exponent? ('\n' :: rest) = none := rfl
  simp only [readUnsigned, digits, fraction, exponent, numberOf_toDigits,
    if_neg (Nat.not_lt.mpr short), Bool.false_eq_true, if_false]

/-- No word starts with a digit. -/
theorem findSome?_words_of_digit {c : Char} (digit : c.isDigit = true) (s : List Char) :
    (words.findSome? fun (word, value) =>
      (afterWord? word (c :: s)).map fun rest => (value, rest)) = none := by
  rw [List.findSome?_eq_none_iff]
  intro pair member
  have starts : ∀ pair ∈ words, ∃ first others, pair.1 = first :: others ∧
      first.isDigit = false := by
    intro pair member
    simp only [words, List.mem_cons, List.not_mem_nil, or_false] at member
    rcases member with rfl | rfl | rfl | rfl | rfl | rfl
    all_goals exact ⟨_, _, rfl, rfl⟩
  obtain ⟨first, others, shape, noDigit⟩ := starts pair member
  simp only [shape, afterWord?, if_neg (ne_of_isDigit digit noDigit).symm, Option.map_none]

/-- What starts with no quote, bracket or brace is a word or a number. -/
theorem readValue_eq_readScalar (depth : Nat) {c : Char} (quote : c ≠ '"') (bracket : c ≠ '[')
    (brace : c ≠ '\x7b') (tail : List Char) :
    readValue depth (c :: tail) = readScalar (c :: tail) := by
  rw [readValue] <;> simp [quote, bracket, brace]

theorem readValue_toDigits (depth : Nat) {n : Nat}
    (short : (Nat.toDigits 10 n).length ≤ Text.digitLimit) :
    readValue depth (Nat.toDigits 10 n ++ '\n' :: rest) =
      .ok (.number (.whole n), '\n' :: rest) := by
  have unsigned := fun start => @readUnsigned_toDigits rest start n short
  have digits : ∀ c ∈ Nat.toDigits 10 n, c.isDigit = true := fun _ => isDigit_of_mem_toDigits
  obtain ⟨c, others, shape⟩ := List.exists_cons_of_ne_nil (@Nat.toDigits_ne_nil n 10)
  rw [shape] at unsigned digits ⊢
  have digit := digits c List.mem_cons_self
  have apart := fun other => @ne_of_isDigit c other digit
  rw [List.cons_append] at unsigned ⊢
  rw [readValue_eq_readScalar depth (apart '"' rfl) (apart '[' rfl) (apart '\x7b' rfl), readScalar,
    findSome?_words_of_digit digit]
  dsimp only
  split
  next minus => exact absurd (List.cons.inj minus).1 (apart '-' rfl)
  next =>
    rw [unsigned]
    rfl

/-- The literals of some names with the separator between each two. -/
theorem exists_joinWith_literals_eq (separator : List Char) (first : Name)
    (others : List Name) :
    ∃ tail, Text.joinWith separator ((first :: others).map fun name => literal name.points) =
      '"' :: tail := by
  cases others with
  | nil => exact ⟨_, rfl⟩
  | cons second more => exact ⟨_, rfl⟩

theorem length_le_joinWith_literals (separator : List Char) (names : List Name) :
    names.length ≤
      (Text.joinWith separator (names.map fun name => literal name.points)).length := by
  induction names with
  | nil => exact Nat.le_refl _
  | cons first others ih =>
    have quoted : 2 ≤ (literal first.points).length := by
      simp [literal]
    cases others with
    | nil => simpa [Text.joinWith] using Nat.le_of_succ_le quoted
    | cons second more =>
      simp only [List.map_cons, Text.joinWith, List.length_append, List.length_cons] at ih ⊢
      omega

/-- The names of a list, one literal to a line. -/
theorem readItems_literals (depth : Nat) {names : List Name} (nonempty : names ≠ []) {fuel : Nat}
    (enough : names.length ≤ fuel) :
    readItems (readValue depth) fuel
      (Text.joinWith ",\n    ".toList (names.map fun name => literal name.points) ++
        ("\n  ]".toList ++ rest)) = .ok (names.map Value.text, rest) := by
  induction names generalizing fuel with
  | nil => exact absurd rfl nonempty
  | cons first others ih =>
    obtain ⟨fuel, rfl⟩ : ∃ less, fuel = less + 1 := Nat.exists_eq_add_one.mpr (by
      simp only [List.length_cons] at enough
      omega)
    cases others with
    | nil =>
      have ends : skipSpace ("\n  ]".toList ++ rest) = ']' :: rest := rfl
      simp only [List.map_cons, List.map_nil, Text.joinWith]
      rw [readItems, readValue_literal]
      simp only [bind, Except.bind, ends]
    | cons second more =>
      have fewer : (second :: more).length ≤ fuel := by simpa using enough
      have later := ih (List.cons_ne_nil _ _) fewer
      obtain ⟨tail, shape⟩ := exists_joinWith_literals_eq ",\n    ".toList second more
      have comma : ∀ s, skipSpace (",\n    ".toList ++ s) = ',' :: ("\n    ".toList ++ s) :=
        fun _ => rfl
      have blanks : ∀ s, skipSpace ("\n    ".toList ++ '"' :: s) = '"' :: s := fun _ => rfl
      have joined : Text.joinWith ",\n    ".toList
          ((first :: second :: more).map fun name => literal name.points) =
          literal first.points ++ (",\n    ".toList ++ Text.joinWith ",\n    ".toList
            ((second :: more).map fun name => literal name.points)) := by
        simp only [List.map_cons, Text.joinWith, List.append_assoc]
      rw [joined, List.append_assoc, readItems, readValue_literal]
      rw [shape] at later ⊢
      simp only [bind, Except.bind, List.append_assoc, comma, List.cons_append, blanks] at later ⊢
      rw [later]
      simp

variable {reader : List Char → Except Stop (Value × List Char)} {value : Value}
  {text left more : List Char} {members : List (Name × Value)}

/-- A member with the closing brace after it. -/
theorem readMembers_last (key : Name) (fuel : Nat)
    (read : reader (skipSpace text) = .ok (value, left))
    (closed : skipSpace left = '\x7d' :: rest) :
    readMembers reader (fuel + 1) (literal key.points ++ ':' :: text) =
      .ok ([(key, value)], rest) := by
  have colon : skipSpace (':' :: text) = ':' :: text := rfl
  rw [literal, List.append_assoc, List.cons_append, readMembers, List.singleton_append,
    readString_literal]
  simp only [bind, Except.bind, colon, read, closed]

/-- A member with another one after it. -/
theorem readMembers_next (key : Name) {fuel : Nat}
    (read : reader (skipSpace text) = .ok (value, left))
    (separated : skipSpace left = ',' :: more)
    (others : readMembers reader fuel (skipSpace more) = .ok (members, rest)) :
    readMembers reader (fuel + 1) (literal key.points ++ ':' :: text) =
      .ok ((key, value) :: members, rest) := by
  have colon : skipSpace (':' :: text) = ':' :: text := rfl
  rw [literal, List.append_assoc, List.cons_append, readMembers, List.singleton_append,
    readString_literal]
  simp only [bind, Except.bind, colon, read, separated, others]

variable {items : List Value} {c : Char} {spaced : List Char}

/-- An array that does not close at once is read by its items. -/
theorem readValue_items {depth : Nat} (start : skipSpace spaced = c :: text) (notClosed : c ≠ ']')
    (read : readItems (readValue depth) (text.length + 1) (c :: text) = .ok (items, rest)) :
    readValue (depth + 1) ('[' :: spaced) = .ok (.array items, rest) := by
  rw [readValue, start]
  split
  next closed => exact absurd (List.cons.inj closed).1 notClosed
  next =>
    rw [List.length_cons, read]
    rfl

/-- An object that does not close at once is read by its members. -/
theorem readValue_members {depth : Nat} (start : skipSpace spaced = c :: text)
    (notClosed : c ≠ '\x7d')
    (read : readMembers (readValue depth) (text.length + 1) (c :: text) = .ok (members, rest)) :
    readValue (depth + 1) ('\x7b' :: spaced) = .ok (.object (Members.ofWritten members), rest) := by
  rw [readValue, start]
  split
  next closed => exact absurd (List.cons.inj closed).1 notClosed
  next =>
    rw [List.length_cons, read]
    rfl

end DependencyAudit.Json

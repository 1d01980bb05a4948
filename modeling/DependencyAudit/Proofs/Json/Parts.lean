import DependencyAudit.Proofs.Except
import DependencyAudit.Proofs.Json.Nesting

namespace DependencyAudit.Json

variable {admits : List Char → Prop} {s rest : List Char}

/-- A run of digits in a text that is longer than what is converted. -/
def LongRun (s : List Char) (number : Text.TooLong) : Prop :=
  ∃ digits, digits <:+: s ∧ (∀ c ∈ digits, c.isDigit) ∧ digits.length = number.digits ∧
    Text.digitLimit < number.digits

theorem LongRun.of_suffix {number : Text.TooLong} (run : LongRun rest number)
    (suffix : rest <:+ s) : LongRun s number := by
  obtain ⟨digits, within, all, length, long⟩ := run
  exact ⟨digits, within.trans suffix.isInfix, all, length, long⟩

/-- What a text holds where its reading stops while `levels` arrays and objects more may be opened:
a long run of digits, or more brackets open at once. -/
def Due (levels : Nat) (s : List Char) : Stop → Prop
  | .malformed _ _ => True
  | .tooLong number => LongRun s number
  | .tooDeep _ => ∀ opened, opened + levels < deepest false opened s

theorem Due.of_leads {levels : Nat} {stop : Stop} (due : Due levels rest stop)
    (leads : Leads 0 s rest) : Due levels s stop := by
  cases stop with
  | malformed _ _ => trivial
  | tooLong number => exact LongRun.of_suffix due leads.suffix
  | tooDeep _ => exact fun opened => Nat.lt_of_lt_of_le (due opened) (leads.deepest_le opened)

/-- A bracket takes one of the levels. -/
theorem Due.open {levels : Nat} {stop : Stop} {c : Char} (due : Due levels s stop)
    (opens : c = '[' ∨ c = '\x7b') : Due (levels + 1) (c :: s) stop := by
  cases stop with
  | malformed _ _ => trivial
  | tooLong number => exact LongRun.of_suffix due (List.suffix_cons _ _)
  | tooDeep _ =>
    intro opened
    have inside := due (opened + 1)
    rw [Nat.add_right_comm, Nat.add_assoc] at inside
    rcases opens with rfl | rfl <;> simpa [deepest_cons] using inside

/-- A reading that gives this value and leaves this rest, or else comes to a long number that is
admitted, or to a bracket that is too deep. -/
def Comes {α : Type} (admits : List Char → Prop) (read : Except Stop (α × List Char)) (value : α)
    (rest : List Char) : Prop :=
  read = .ok (value, rest) ∨
    (∃ number digits, read = .error (.tooLong number) ∧ admits digits ∧ ¬ Short digits) ∨
    ∃ place, read = .error (.tooDeep place)

theorem Comes.bind {α β : Type} {read : Except Stop (α × List Char)} {a : α} {b : β}
    {left : List Char} {next : α × List Char → Except Stop (β × List Char)}
    (first : Comes admits read a left) (second : Comes admits (next (a, left)) b rest) :
    Comes admits (read >>= next) b rest := by
  obtain rfl | ⟨number, digits, rfl, long⟩ | ⟨place, rfl⟩ := first
  · exact second
  · exact .inr (.inl ⟨number, digits, rfl, long⟩)
  · exact .inr (.inr ⟨place, rfl⟩)

section Strings

variable {opened : List Char} {points : List Text.Point}

theorem points_of_readPoints (read : readPoints opened s = .ok (points, rest)) :
    Points s points rest := by
  fun_induction readPoints opened s generalizing points rest with
  | case1 => cases read
  | case2 =>
    cases read
    exact .done
  | case3 => cases read
  | case4 _ _ _ _ _ _ _ number ih =>
    obtain ⟨⟨others, left⟩, first, same⟩ := Except.bind_eq_ok_iff.mp read
    cases same
    exact .unit number (ih first)
  | case5 => cases read
  | case6 => cases read
  | case7 _ _ _ _ _ short ih =>
    obtain ⟨⟨others, left⟩, first, same⟩ := Except.bind_eq_ok_iff.mp read
    cases same
    exact .short short (ih first)
  | case8 => cases read
  | case9 => cases read
  | case10 c tail notQuote alone _ _ escape shown ih =>
    obtain ⟨⟨others, left⟩, first, same⟩ := Except.bind_eq_ok_iff.mp read
    cases same
    have notBackslash : c ≠ '\\' := by
      cases tail with
      | nil => exact fun same => alone same rfl
      | cons next more => exact fun same => escape next more same rfl
    exact .plain notQuote notBackslash (Nat.not_lt.mp shown) (ih first)

theorem readPoints_of_points (written : Points s points rest) :
    readPoints opened s = .ok (points, rest) := by
  induction written with
  | done => rfl
  | plain notQuote notBackslash shown _ ih =>
    exact readPoints_plain notQuote notBackslash shown ih
  | @short c _ _ _ _ short _ ih =>
    refine readPoints_shortEscape ?_ short ih
    rintro rfl
    cases short
  | @unit a b c d n s points rest number _ ih =>
    obtain ⟨next, others, rfl⟩ := List.exists_cons_of_ne_nil (rest_ne_nil_of_readPoints ih)
    rw [readPoints]
    · rw [ih]
      rfl
    · exact number

/-- A string literal that is not read is malformed. -/
theorem exists_malformed_of_readPoints {stop : Stop} (fails : readPoints opened s = .error stop) :
    ∃ complaint left, stop = .malformed complaint left := by
  have passed : ∀ {read : Except Stop (List Text.Point × List Char)} {p : Text.Point},
      (read >>= fun found => .ok (p :: found.1, found.2)) = .error stop → read = .error stop := by
    intro read p fails
    rcases Except.bind_eq_error_iff.mp fails with fails | ⟨_, _, fails⟩
    · exact fails
    · cases fails
  fun_induction readPoints opened s with
  | case4 _ _ _ _ _ _ _ _ ih => exact ih (passed fails)
  | case7 _ _ _ _ _ _ ih => exact ih (passed fails)
  | case10 _ _ _ _ _ _ _ _ ih => exact ih (passed fails)
  | case2 => cases fails
  | case1 | case3 | case5 | case6 | case8 | case9 =>
    cases fails
    exact ⟨_, _, rfl⟩

theorem readString_eq_ok_iff {name : Name} :
    readString s = .ok (name, rest) ↔ ∃ points, Points s points rest ∧ name = .ofPoints points := by
  constructor
  · intro read
    obtain ⟨⟨points, left⟩, first, same⟩ := Except.bind_eq_ok_iff.mp read
    cases same
    exact ⟨points, points_of_readPoints first, rfl⟩
  · intro holds
    obtain ⟨points, written, rfl⟩ := holds
    rw [readString, readPoints_of_points written]
    rfl

theorem due_of_readString {levels : Nat} {text : List Char} {stop : Stop}
    (fails : readString s = .error stop) : Due levels text stop := by
  rcases Except.bind_eq_error_iff.mp fails with fails | ⟨_, _, fails⟩
  · obtain ⟨_, _, rfl⟩ := exists_malformed_of_readPoints fails
    trivial
  · cases fails

end Strings

section Numbers

/-- What stands next is no digit. -/
def NoDigit (s : List Char) : Prop := ∀ c, s.head? = some c → c.isDigit = false

/-- What can stand behind a value in a text: nothing, a space, or what ends or separates values. -/
def Behind (s : List Char) : Prop := ∀ c, s.head? = some c → isSpace c ∨ c ∈ [',', ']', '\x7d']

theorem Behind.noDigit (behind : Behind s) : NoDigit s := by
  intro c next
  rcases behind c next with space | closing
  · simp only [isSpace, Bool.or_eq_true, beq_iff_eq] at space
    rcases space with ((rfl | rfl) | rfl) | rfl
    all_goals rfl
  · simp only [List.mem_cons, List.not_mem_nil, or_false] at closing
    rcases closing with rfl | rfl | rfl
    all_goals rfl

theorem Behind.head?_ne (behind : Behind s) (other : Char)
    (apart : other ∈ ['.', 'e', 'E', '+', '-']) : s.head? ≠ some other := by
  intro next
  simp only [List.mem_cons, List.not_mem_nil, or_false] at apart
  have closing := behind other next
  rcases apart with rfl | rfl | rfl | rfl | rfl
  all_goals exact absurd closing (by decide)

/-- Digits that no digit follows are the longest run. -/
theorem digits_span {digits : List Char} (all : ∀ c ∈ digits, c.isDigit) (ends : NoDigit rest) :
    (digits ++ rest).takeWhile Char.isDigit = digits ∧
      (digits ++ rest).dropWhile Char.isDigit = rest := by
  rw [List.takeWhile_append_of_pos all, List.dropWhile_append_of_pos all]
  cases rest with
  | nil => simp
  | cons c others =>
    have noDigit := ends c rfl
    simp [noDigit]

/-- A run of digits as the reader takes it apart: its first digit, and the longest run of others. -/
theorem Digits.exists_head {digits : List Char} (written : Digits digits) (ends : NoDigit rest) :
    ∃ c others, digits = c :: others ∧ c.isDigit ∧
      (others ++ rest).takeWhile Char.isDigit = others ∧
      (others ++ rest).dropWhile Char.isDigit = rest := by
  obtain ⟨nonempty, all⟩ := written
  obtain ⟨c, others, rfl⟩ := List.exists_cons_of_ne_nil nonempty
  obtain ⟨digit, later⟩ := List.forall_mem_cons.mp all
  exact ⟨c, others, rfl, digit, digits_span later ends⟩

theorem digits_of_head {c : Char} (digit : c.isDigit) (s : List Char) :
    Digits (c :: s.takeWhile Char.isDigit) :=
  ⟨List.cons_ne_nil _ _, List.forall_mem_cons.mpr ⟨digit, fun _ => List.mem_takeWhile_imp⟩⟩

theorem whole_of_wholeDigits? {whole : List Char} (read : wholeDigits? s = some (whole, rest)) :
    s = whole ++ rest ∧ WholeDigits whole := by
  unfold wholeDigits? at read
  split at read
  · cases read
    exact ⟨rfl, ⟨List.cons_ne_nil _ _, List.forall_mem_singleton.mpr rfl⟩, fun _ => rfl⟩
  next c others notZero =>
    split at read
    next digit =>
      cases read
      refine ⟨by rw [List.cons_append, List.takeWhile_append_dropWhile], digits_of_head digit _, ?_⟩
      intro zero
      rw [List.head?_cons, Option.some.injEq] at zero
      exact absurd zero notZero
    next => cases read
  · cases read

theorem wholeDigits?_append {whole : List Char} (written : WholeDigits whole)
    (ends : NoDigit rest) : wholeDigits? (whole ++ rest) = some (whole, rest) := by
  obtain ⟨digits, alone⟩ := written
  obtain ⟨c, others, rfl, digit, run, left⟩ := digits.exists_head ends
  by_cases zero : c = '0'
  · rw [alone (by rw [zero]; rfl)]
    rfl
  · rw [List.cons_append, wholeDigits?]
    · rw [if_pos digit, run, left]
    · exact zero

theorem fraction_fractionDigits (s : List Char) :
    Fraction s (fractionDigits s).1 (fractionDigits s).2 := by
  unfold fractionDigits
  split
  next c others =>
    split
    next digit =>
      have shape : c :: others =
          c :: others.takeWhile Char.isDigit ++ others.dropWhile Char.isDigit := by simp
      rw [shape]
      exact .some (digits_of_head digit others)
    next => exact .none
  next => exact .none

theorem fractionDigits_eq {digits : List Char} (written : Fraction s digits rest)
    (ends : NoDigit rest) (noPoint : rest.head? ≠ some '.') :
    fractionDigits s = (digits, rest) := by
  cases written with
  | none =>
    unfold fractionDigits
    split
    · exact absurd rfl noPoint
    · rfl
  | some written =>
    obtain ⟨c, others, rfl, digit, run, left⟩ := written.exists_head ends
    rw [List.cons_append, fractionDigits, if_pos digit, run, left]

theorem exponent_of_exponent? {exponent : Int} (read : exponent? s = some (exponent, rest)) :
    Exponent s (some exponent) rest := by
  have shape : ∀ (c : Char) (others : List Char), c :: others =
      c :: others.takeWhile Char.isDigit ++ others.dropWhile Char.isDigit := by simp
  have signed : ∀ mark left, mark = 'e' ∨ mark = 'E' →
      signedDigits? left = some (exponent, rest) →
        Exponent (mark :: left) (some exponent) rest := by
    intro mark left isMark read
    unfold signedDigits? at read
    split at read
    next c others =>
      split at read
      next digit =>
        cases read
        rw [shape c others]
        exact .minus isMark (digits_of_head digit others)
      next => cases read
    next c others =>
      split at read
      next digit =>
        cases read
        rw [shape c others]
        exact .plus isMark (digits_of_head digit others)
      next => cases read
    next c others _ _ =>
      split at read
      next digit =>
        cases read
        rw [shape c others]
        exact .plain isMark (digits_of_head digit others)
      next => cases read
    next => cases read
  unfold exponent? at read
  split at read
  · exact signed 'e' _ (.inl rfl) read
  · exact signed 'E' _ (.inr rfl) read
  · cases read

theorem exponent?_eq {exponent : Option Int} (written : Exponent s exponent rest)
    (behind : Behind rest) : exponent? s = exponent.map (·, rest) := by
  have signed : ∀ mark left, mark = 'e' ∨ mark = 'E' →
      exponent? (mark :: left) = signedDigits? left := by
    intro mark left isMark
    rcases isMark with rfl | rfl
    · rfl
    · rfl
  have apart : ∀ c : Char, c.isDigit → c ≠ '-' ∧ c ≠ '+' := by
    intro c digit
    constructor
    · rintro rfl
      cases digit
    · rintro rfl
      cases digit
  cases written with
  | none =>
    unfold exponent?
    split
    · exact absurd rfl (behind.head?_ne 'e' (by decide))
    · exact absurd rfl (behind.head?_ne 'E' (by decide))
    · rfl
  | plain isMark digits =>
    obtain ⟨c, others, rfl, digit, run, left⟩ := digits.exists_head behind.noDigit
    rw [signed _ _ isMark, List.cons_append, signedDigits?]
    · rw [if_pos digit, run, left]
      rfl
    · exact fun _ _ same _ => (apart c digit).1 same
    · exact fun _ _ same _ => (apart c digit).2 same
  | plus isMark digits =>
    obtain ⟨c, others, rfl, digit, run, left⟩ := digits.exists_head behind.noDigit
    rw [signed _ _ isMark, List.cons_append, signedDigits?, if_pos digit, run, left]
    rfl
  | minus isMark digits =>
    obtain ⟨c, others, rfl, digit, run, left⟩ := digits.exists_head behind.noDigit
    rw [signed _ _ isMark, List.cons_append, signedDigits?, if_pos digit, run, left]
    rfl

section

variable {negative : Bool} {start digits left written more : List Char} {power : Option Int}
  {number : Number}

/-- The reading of a number by its parts. -/
theorem readUnsigned_eq (whole : wholeDigits? s = some (digits, left))
    (fraction : fractionDigits left = (written, more))
    (exponent : exponent? more = power.map (·, rest)) (ends : power = none → rest = more) :
    readUnsigned negative start s =
      if written = [] ∧ power = none ∧ Text.digitLimit < digits.length then
        .error (.tooLong ⟨digits.length⟩)
      else .ok (numberOfParts negative digits written power, rest) := by
  cases power with
  | some power =>
    rw [readUnsigned, whole]
    simp only [fraction, exponent, Option.map_some, reduceCtorEq, false_and, and_false, if_false]
    rfl
  | none =>
    obtain rfl := ends rfl
    rw [readUnsigned, whole]
    simp only [fraction, exponent, Option.map_none]
    cases written with
    | nil => simp only [true_and, numberOfParts, if_true]
    | cons c others => simp only [reduceCtorEq, false_and, if_false, numberOfParts]

/-- The parts of a number, as far as there are any. -/
theorem exists_parts (whole : wholeDigits? s = some (digits, left)) :
    ∃ written more power rest, fractionDigits left = (written, more) ∧
      exponent? more = power.map (·, rest) ∧ (power = none → rest = more) ∧
      s = digits ++ left ∧ WholeDigits digits ∧ Fraction left written more ∧
      Exponent more power rest := by
  obtain ⟨same, isWhole⟩ := whole_of_wholeDigits? whole
  have fraction := fraction_fractionDigits left
  cases answer : exponent? (fractionDigits left).2 with
  | none => exact ⟨_, _, none, _, rfl, answer, fun _ => rfl, same, isWhole, fraction, .none⟩
  | some pair =>
    exact ⟨_, _, some pair.1, pair.2, rfl, answer, nofun, same, isWhole, fraction,
      exponent_of_exponent? answer⟩

/-- What is read as a number is written as one, and if it is whole, it is short. -/
theorem unsigned_of_readUnsigned (read : readUnsigned negative start s = .ok (number, rest)) :
    Unsigned Short negative s number rest := by
  cases whole : wholeDigits? s with
  | none =>
    rw [readUnsigned, whole] at read
    cases read
  | some pair =>
    obtain ⟨written, more, power, behind, fraction, exponent, ends, same, isWhole, isFraction,
      isExponent⟩ := exists_parts whole
    rw [readUnsigned_eq whole fraction exponent ends] at read
    split at read
    · cases read
    next short =>
      cases read
      rw [same]
      refine .intro isWhole isFraction isExponent ?_
      intro noFraction noExponent
      by_contra long
      exact short ⟨noFraction, noExponent, Nat.not_le.mp long⟩

theorem due_of_readUnsigned {levels : Nat} {stop : Stop} (isStart : s <:+ start)
    (read : readUnsigned negative start s = .error stop) : Due levels start stop := by
  cases whole : wholeDigits? s with
  | none =>
    rw [readUnsigned, whole] at read
    cases read
    trivial
  | some pair =>
    obtain ⟨written, more, power, behind, fraction, exponent, ends, same, isWhole, -, -⟩ :=
      exists_parts whole
    rw [readUnsigned_eq whole fraction exponent ends] at read
    split at read
    next long =>
      cases read
      have run : LongRun s ⟨pair.1.length⟩ := by
        rw [same]
        exact ⟨pair.1, List.infix_append' [] pair.1 pair.2, isWhole.1.2, rfl, long.2.2⟩
      exact run.of_suffix isStart
    next => cases read

theorem readUnsigned_of_unsigned (written : Unsigned admits negative s number rest)
    (behind : Behind rest) : Comes admits (readUnsigned negative start s) number rest := by
  obtain @⟨whole, left, fraction, more, exponent, rest, isWhole, isFraction, isExponent,
    admitted⟩ := written
  -- Each part ends where the next one, or what stands behind the number, starts.
  have atPower : NoDigit more ∧ more.head? ≠ some '.' := by
    cases isExponent with
    | none => exact ⟨behind.noDigit, behind.head?_ne '.' (by decide)⟩
    | plain isMark _ => rcases isMark with rfl | rfl <;> simp [NoDigit]
    | plus isMark _ => rcases isMark with rfl | rfl <;> simp [NoDigit]
    | minus isMark _ => rcases isMark with rfl | rfl <;> simp [NoDigit]
  have atPoint : NoDigit left := by
    cases isFraction with
    | none => exact atPower.1
    | some _ => simp [NoDigit]
  have ends : exponent = none → rest = more := by
    rintro rfl
    cases isExponent
    rfl
  rw [readUnsigned_eq (wholeDigits?_append isWhole atPoint)
    (fractionDigits_eq isFraction atPower.1 atPower.2) (exponent?_eq isExponent behind) ends]
  split
  next long =>
    exact .inr (.inl ⟨_, whole, rfl, admitted long.1 long.2.1, Nat.not_le.mpr long.2.2⟩)
  next => exact .inl rfl

end

end Numbers

section Scalars

variable {word : List Char} {value : Value}

theorem afterWord?_eq_some_iff : afterWord? word s = some rest ↔ s = word ++ rest := by
  induction word generalizing s with
  | nil => simp [afterWord?]
  | cons c others ih =>
    cases s with
    | nil => simp [afterWord?]
    | cons first tail =>
      by_cases same : c = first
      · simp [afterWord?, same, ih]
      · simp [afterWord?, same, Ne.symm same]

/-- What is read before numbers are looked for is one of the words. -/
theorem exists_word {found : Value × List Char}
    (read : (words.findSome? fun (word, value) =>
      (afterWord? word s).map fun rest => (value, rest)) = some found) :
    ∃ word, (word, found.1) ∈ words ∧ s = word ++ found.2 := by
  obtain ⟨⟨word, value⟩, member, read⟩ := List.exists_of_findSome?_eq_some read
  obtain ⟨rest, after, rfl⟩ := Option.map_eq_some_iff.mp read
  exact ⟨word, member, afterWord?_eq_some_iff.mp after⟩

theorem readScalar_word (member : (word, value) ∈ words) (rest : List Char) :
    readScalar (word ++ rest) = .ok (value, rest) := by
  simp only [words, List.mem_cons, List.not_mem_nil, or_false, Prod.mk.injEq] at member
  rcases member with ⟨rfl, rfl⟩ | ⟨rfl, rfl⟩ | ⟨rfl, rfl⟩ | ⟨rfl, rfl⟩ | ⟨rfl, rfl⟩ | ⟨rfl, rfl⟩
  all_goals rfl

/-- No word is a sign with a digit behind it. -/
theorem findSome?_words_of_minus {c : Char} (digit : c.isDigit = true) (tail : List Char) :
    (words.findSome? fun (word, value) =>
      (afterWord? word ('-' :: c :: tail)).map fun rest => (value, rest)) = none := by
  have apart : 'I' ≠ c := (ne_of_isDigit digit rfl).symm
  simp [words, afterWord?, apart]

theorem Unsigned.exists_digit {negative : Bool} {number : Number}
    (written : Unsigned admits negative s number rest) : ∃ c tail, s = c :: tail ∧ c.isDigit := by
  obtain ⟨⟨⟨nonempty, all⟩, -⟩, -, -, -⟩ := written
  obtain ⟨c, others, rfl⟩ := List.exists_cons_of_ne_nil nonempty
  exact ⟨c, _, rfl, all c List.mem_cons_self⟩

theorem readScalar_of_numeral {number : Number} (written : Numeral admits s number rest)
    (behind : Behind rest) : Comes admits (readScalar s) (.number number) rest := by
  cases written with
  | positive unsigned =>
    obtain ⟨c, tail, rfl, digit⟩ := unsigned.exists_digit
    have notMinus : c ≠ '-' := ne_of_isDigit digit rfl
    rw [readScalar, findSome?_words_of_digit digit]
    dsimp only
    split
    next minus => exact absurd (List.cons.inj minus).1 notMinus
    next => exact (readUnsigned_of_unsigned unsigned behind).bind (.inl rfl)
  | negative unsigned =>
    obtain ⟨c, tail, rfl, digit⟩ := unsigned.exists_digit
    rw [readScalar, findSome?_words_of_minus digit]
    exact (readUnsigned_of_unsigned unsigned behind).bind (.inl rfl)

end Scalars

end DependencyAudit.Json

import DependencyAudit.Proofs.Json.Reader

namespace DependencyAudit.Json

/-- Nothing but space stands between two places. -/
def Spaces (s rest : List Char) : Prop := ∃ run, s = run ++ rest ∧ ∀ c ∈ run, isSpace c

/-- ASCII digits, at least one. -/
def Digits (digits : List Char) : Prop := digits ≠ [] ∧ ∀ c ∈ digits, c.isDigit

/-- Digits of which the first is a zero only where it stands alone. -/
def WholeDigits (digits : List Char) : Prop :=
  Digits digits ∧ (digits.head? = some '0' → digits = ['0'])

/-- The digits behind a point, none where there is no point. -/
inductive Fraction : List Char → List Char → List Char → Prop
  | none {s} : Fraction s [] s
  | some {digits rest} : Digits digits → Fraction ('.' :: (digits ++ rest)) digits rest

/-- The exponent of a number, if it has one. -/
inductive Exponent : List Char → Option Int → List Char → Prop
  | none {s} : Exponent s none s
  | plain {mark digits rest} : mark = 'e' ∨ mark = 'E' → Digits digits →
      Exponent (mark :: (digits ++ rest)) (some (numberOf digits)) rest
  | plus {mark digits rest} : mark = 'e' ∨ mark = 'E' → Digits digits →
      Exponent (mark :: '+' :: (digits ++ rest)) (some (numberOf digits)) rest
  | minus {mark digits rest} : mark = 'e' ∨ mark = 'E' → Digits digits →
      Exponent (mark :: '-' :: (digits ++ rest)) (some (-(numberOf digits : Int))) rest

/-- The number with this sign, these digits and this exponent. -/
def numberOfParts (negative : Bool) (whole fraction : List Char) : Option Int → Number
  | some exponent =>
    .decimal negative (numberOf (whole ++ fraction)) (exponent - fraction.length)
  | none =>
    if fraction = [] then .whole (if negative then -(numberOf whole : Int) else numberOf whole)
    else .decimal negative (numberOf (whole ++ fraction)) (-(fraction.length : Int))

/-- A number without its sign. A whole number must be one of those that are admitted. -/
inductive Unsigned (admits : List Char → Prop) (negative : Bool) :
    List Char → Number → List Char → Prop
  | intro {whole left fraction more exponent rest} :
      WholeDigits whole → Fraction left fraction more → Exponent more exponent rest →
      (fraction = [] → exponent = none → admits whole) →
      Unsigned admits negative (whole ++ left) (numberOfParts negative whole fraction exponent) rest

/-- A number. -/
inductive Numeral (admits : List Char → Prop) : List Char → Number → List Char → Prop
  | positive {s number rest} : Unsigned admits false s number rest → Numeral admits s number rest
  | negative {s number rest} :
      Unsigned admits true s number rest → Numeral admits ('-' :: s) number rest

/-- The points of a string literal, from behind its opening quote to behind its closing one. -/
inductive Points : List Char → List Text.Point → List Char → Prop
  | done {rest} : Points ('"' :: rest) [] rest
  | plain {c s points rest} :
      c ≠ '"' → c ≠ '\\' → 0x20 ≤ c.toNat → Points s points rest →
      Points (c :: s) (.char c :: points) rest
  | short {c plain s points rest} :
      shortEscape? c = some plain → Points s points rest →
      Points ('\\' :: c :: s) (.char plain :: points) rest
  | unit {a b c d n s points rest} :
      Text.hexNumber? [a, b, c, d] = some n → Points s points rest →
      Points ('\\' :: 'u' :: a :: b :: c :: d :: s) (.ofUnit n :: points) rest

/-- What can stand at a place: a value, the items of an array up to its closing bracket, or the
members of an object up to its closing brace. -/
inductive Part where
  | value (value : Value)
  | items (items : List Value)
  | members (members : List (Name × Value))

/-- What a text writes between two places. -/
inductive Spells (admits : List Char → Prop) : List Char → Part → List Char → Prop
  | word {word value rest} : (word, value) ∈ words →
      Spells admits (word ++ rest) (.value value) rest
  | number {s number rest} : Numeral admits s number rest →
      Spells admits s (.value (.number number)) rest
  | text {s points rest} : Points s points rest →
      Spells admits ('"' :: s) (.value (.text (.ofPoints points))) rest
  | noItems {s rest} : Spaces s (']' :: rest) → Spells admits ('[' :: s) (.value (.array [])) rest
  | array {s first items rest} :
      Spaces s first → Spells admits first (.items items) rest →
      Spells admits ('[' :: s) (.value (.array items)) rest
  | noMembers {s rest} :
      Spaces s ('\x7d' :: rest) → Spells admits ('\x7b' :: s) (.value (.object [])) rest
  | object {s first members rest} :
      Spaces s first → Spells admits first (.members members) rest →
      Spells admits ('\x7b' :: s) (.value (.object (Members.ofWritten members))) rest
  | lastItem {s item left rest} :
      Spells admits s (.value item) left → Spaces left (']' :: rest) →
      Spells admits s (.items [item]) rest
  | nextItem {s item left more next items rest} :
      Spells admits s (.value item) left → Spaces left (',' :: more) → Spaces more next →
      Spells admits next (.items items) rest → Spells admits s (.items (item :: items)) rest
  | lastMember {s points colon more start value left rest} :
      Points s points colon → Spaces colon (':' :: more) → Spaces more start →
      Spells admits start (.value value) left → Spaces left ('\x7d' :: rest) →
      Spells admits ('"' :: s) (.members [(.ofPoints points, value)]) rest
  | nextMember {s points colon more start value left behind next members rest} :
      Points s points colon → Spaces colon (':' :: more) → Spaces more start →
      Spells admits start (.value value) left → Spaces left (',' :: behind) → Spaces behind next →
      Spells admits next (.members members) rest →
      Spells admits ('"' :: s) (.members ((.ofPoints points, value) :: members)) rest

/-- A text that is one value with nothing but space around it. -/
def IsText (admits : List Char → Prop) (s : List Char) (value : Value) : Prop :=
  ∃ start left, Spaces s start ∧ Spells admits start (.value value) left ∧ Spaces left []

/-- Whole numbers of any length. -/
def AnyNumber (_ : List Char) : Prop := True

/-- The whole numbers that are converted. -/
def Short (digits : List Char) : Prop := digits.length ≤ Text.digitLimit

section

variable {s rest : List Char}

theorem Spaces.refl (s : List Char) : Spaces s s := ⟨[], rfl, by simp⟩

theorem spaces_skipSpace (s : List Char) : Spaces s (skipSpace s) :=
  ⟨s.takeWhile isSpace, (List.takeWhile_append_dropWhile).symm, fun _ => List.mem_takeWhile_imp⟩

theorem spaces_of_skipSpace (skipped : skipSpace s = rest) : Spaces s rest :=
  skipped ▸ spaces_skipSpace s

/-- All the space is passed over, if none is left. -/
theorem Spaces.skipSpace_eq (spaces : Spaces s rest)
    (ends : ∀ c, rest.head? = some c → ¬ isSpace c) : skipSpace s = rest := by
  obtain ⟨run, rfl, all⟩ := spaces
  rw [skipSpace, List.dropWhile_append_of_pos all]
  cases rest with
  | nil => rfl
  | cons c others => exact List.dropWhile_cons_of_neg (ends c rfl)

variable {admits : List Char → Prop}

/-- Where more numbers are admitted, no less is written. -/
theorem Spells.mono {admits' : List Char → Prop} (more : ∀ digits, admits digits → admits' digits)
    {part : Part} (written : Spells admits s part rest) : Spells admits' s part rest := by
  have unsigned : ∀ {negative s number rest}, Unsigned admits negative s number rest →
      Unsigned admits' negative s number rest := by
    intro negative s number rest unsigned
    obtain ⟨whole, fraction, exponent, admitted⟩ := unsigned
    exact .intro whole fraction exponent fun empty empty' => more _ (admitted empty empty')
  induction written with
  | word member => exact .word member
  | number numeral =>
    cases numeral with
    | positive written => exact .number (.positive (unsigned written))
    | negative written => exact .number (.negative (unsigned written))
  | text points => exact .text points
  | noItems closed => exact .noItems closed
  | array spaces _ ih => exact .array spaces ih
  | noMembers closed => exact .noMembers closed
  | object spaces _ ih => exact .object spaces ih
  | lastItem _ closed ih => exact .lastItem ih closed
  | nextItem _ comma spaces _ ih ih' => exact .nextItem ih comma spaces ih'
  | lastMember points colon spaces _ closed ih => exact .lastMember points colon spaces ih closed
  | nextMember points colon spaces _ comma spaces' _ ih ih' =>
    exact .nextMember points colon spaces ih comma spaces' ih'

theorem IsText.mono {admits' : List Char → Prop} (more : ∀ digits, admits digits → admits' digits)
    {value : Value} (written : IsText admits s value) : IsText admits' s value := by
  obtain ⟨start, left, spaces, written, ends⟩ := written
  exact ⟨start, left, spaces, written.mono more, ends⟩

end

end DependencyAudit.Json

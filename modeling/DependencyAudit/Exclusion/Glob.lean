import DependencyAudit.Regex

namespace DependencyAudit.Exclusion

/-- One item of a glob. -/
inductive GlobItem where
  | literal (c : Char)
  | star
  | question
  /-- The text between brackets, and whether the class is of the characters not named by it. -/
  | brackets (negated : Bool) (inner : List Char)
  deriving DecidableEq, Repr

/-- A character inside a segment. -/
def notSlash (c : Char) : Bool := c != '/'

/-- Takes the mark of negation off the front of what stands in brackets. -/
def negation : List Char → Bool × List Char
  | '!' :: rest | '^' :: rest => (true, rest)
  | s => (false, s)

/-- A closing bracket right at the start belongs to the class. -/
def leadingBracket : List Char → List Char × List Char
  | ']' :: rest => ([']'], rest)
  | s => ([], s)

/-- What stands in brackets that have just been opened, where they are closed again: whether the
class is negated, its text, and the rest after the closing bracket. -/
def brackets? (s : List Char) : Option (Bool × List Char × List Char) :=
  let sign := negation s
  let lead := leadingBracket sign.2
  match lead.2.dropWhile (· ≠ ']') with
  | _ :: rest => some (sign.1, lead.1 ++ lead.2.takeWhile (· ≠ ']'), rest)
  | [] => none

theorem length_negation_le (s : List Char) : (negation s).2.length ≤ s.length := by
  unfold negation
  split <;> simp

theorem length_leadingBracket_le (s : List Char) : (leadingBracket s).2.length ≤ s.length := by
  unfold leadingBracket
  split <;> simp

theorem length_lt_of_brackets? {s : List Char} {found : Bool × List Char × List Char}
    (closes : brackets? s = some found) : found.2.2.length < s.length := by
  have one := length_negation_le s
  have two := length_leadingBracket_le (negation s).2
  have three := (List.dropWhile_suffix (l := (leadingBracket (negation s).2).2)
    fun c => decide (c ≠ ']')).length_le
  simp only [brackets?] at closes
  split at closes
  · next shape =>
    cases closes
    rw [shape, List.length_cons] at three
    simp only
    omega
  · cases closes

/-- The items of a glob. A backslash at the end makes it none. -/
def globItems? (s : List Char) : Option (List GlobItem) :=
  match s with
  | [] => some []
  | ['\\'] => none
  | '\\' :: c :: rest => (globItems? rest).map (.literal c :: ·)
  | '*' :: rest => (globItems? rest).map (.star :: ·)
  | '?' :: rest => (globItems? rest).map (.question :: ·)
  | '[' :: rest =>
    match _closes : brackets? rest with
    | some found => (globItems? found.2.2).map (.brackets found.1 found.2.1 :: ·)
    | none => (globItems? rest).map (.literal '[' :: ·)
  | c :: rest => (globItems? rest).map (.literal c :: ·)
termination_by s.length
decreasing_by
  all_goals simp only [List.length_cons]
  · omega
  · omega
  · omega
  · exact Nat.lt_succ_of_lt (length_lt_of_brackets? _closes)
  · omega
  · omega

/-- The ranges of characters that the text between brackets names. A hyphen between two characters
makes a range; one whose ends are out of order makes the class invalid. -/
def classRanges? : List Char → Option (List (Char × Char))
  | [] => some []
  | first :: '-' :: last :: rest =>
    if last < first then none else (classRanges? rest).map ((first, last) :: ·)
  | c :: rest => (classRanges? rest).map ((c, c) :: ·)

/-- The pattern of an item, unless it is an invalid class. -/
def GlobItem.regex? : GlobItem → Option Regex
  | literal c => some (.char c)
  | star => some (.many notSlash)
  | question => some (.one notSlash)
  | brackets negated inner => (classRanges? inner).map fun ranges =>
    .one fun c => (ranges.any fun (first, last) => first ≤ c && c ≤ last) != negated

/-- The pattern of a glob, unless one of its classes is invalid. -/
def globRegex? : List GlobItem → Option Regex
  | [] => some .empty
  | item :: rest => do
    let first ← item.regex?
    let others ← globRegex? rest
    return first ++ others

end DependencyAudit.Exclusion

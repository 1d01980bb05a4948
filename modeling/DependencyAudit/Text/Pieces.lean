import DependencyAudit.Text.Class

namespace DependencyAudit.Text

/-- The pieces between the characters that separate. -/
def pieces (separates : Char → Bool) : List Char → List (List Char)
  | [] => [[]]
  | c :: rest =>
    if separates c then [] :: pieces separates rest
    else
      match pieces separates rest with
      | [] => [[c]]
      | piece :: others => (c :: piece) :: others

/-- The pieces between the occurrences of one character. -/
def piecesAt (separator : Char) (s : List Char) : List (List Char) := pieces (· == separator) s

/-- The texts with the separator between each two neighbours. -/
def joinWith (separator : List Char) : List (List Char) → List Char
  | [] => []
  | [only] => only
  | first :: second :: rest => first ++ separator ++ joinWith separator (second :: rest)

theorem pieces_ne_nil (separates : Char → Bool) (s : List Char) : pieces separates s ≠ [] := by
  cases s with
  | nil => simp [pieces]
  | cons c rest =>
    unfold pieces
    split
    · simp
    · split <;> simp

/-- Nothing is lost in cutting: the pieces joined again are the text. -/
theorem joinWith_piecesAt (separator : Char) (s : List Char) :
    joinWith [separator] (piecesAt separator s) = s := by
  induction s with
  | nil => rfl
  | cons c rest ih =>
    unfold piecesAt at ih ⊢
    rw [pieces]
    have found := pieces_ne_nil (· == separator) rest
    by_cases same : c = separator
    · subst same
      cases shape : pieces (· == c) rest with
      | nil => exact absurd shape found
      | cons piece others =>
        rw [shape] at ih
        simp [joinWith, ih]
    · cases shape : pieces (· == separator) rest with
      | nil => exact absurd shape found
      | cons piece others =>
        rw [shape] at ih
        cases others with
        | nil => simpa [same, joinWith] using ih
        | cons next more => simpa [same, joinWith] using ih

/-- The text without the blanks before its first other character. -/
def trimStart (s : List Char) : List Char := s.dropWhile isBlank

/-- The text without the blanks after its last other character. -/
def trimEnd (s : List Char) : List Char := (s.reverse.dropWhile isBlank).reverse

/-- The text without the blanks at its two ends. -/
def trim (s : List Char) : List Char := trimEnd (trimStart s)

/-- The characters that end a line of a text that is measured. -/
def endsLine (c : Char) : Bool :=
  let n := c.toNat
  (10 ≤ n && n ≤ 13) || (28 ≤ n && n ≤ 30) || n == 0x85 || n == 0x2028 || n == 0x2029

/-- The lines of a text, each with the line feed that ends it. -/
def wholeLines : List Char → List (List Char)
  | [] => []
  | '\n' :: rest => ['\n'] :: wholeLines rest
  | c :: rest =>
    match wholeLines rest, rest with
    | line :: others, _ :: _ => (c :: line) :: others
    | _, _ => [[c]]

/-- A line without the line feed that ends it. -/
def bareLine (line : List Char) : List Char :=
  if line.getLast? = some '\n' then line.dropLast else line

/-- The lines of a text without line feeds. -/
def bareLines (s : List Char) : List (List Char) := (wholeLines s).map bareLine

end DependencyAudit.Text

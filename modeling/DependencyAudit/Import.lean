import DependencyAudit.Names
import DependencyAudit.Regex
import DependencyAudit.Text.Class
import DependencyAudit.Text.Pieces

namespace DependencyAudit.Import

/-- An import-like construct with a literal target. -/
inductive Form where
  /-- An import declaration, with or without a clause before the target. -/
  | static
  /-- A call of the function that loads a module. -/
  | require
  /-- An import written as a call. -/
  | dynamic
  deriving DecidableEq, Repr

/-- The two quotes that can enclose a target. A template literal is none. -/
def isQuote (c : Char) : Bool := c == '\'' || c == '"'

/-- The characters of an import clause: names, braces, commas, the star and blanks. -/
def isClause (c : Char) : Bool :=
  Text.isWord c || c == '{' || c == '}' || c == ',' || c == '*' || Text.isBlank c

namespace Form

/-- All forms, in the order in which their targets are listed. -/
def all : List Form := [.static, .require, .dynamic]

/-- The clause of an import declaration with the word that ends it. -/
def clause : Regex :=
  .atLeastOne isClause ++ .atLeastOne Text.isBlank ++ .word "from" ++ .atLeastOne Text.isBlank

/-- What comes before the target, up to and including the quote that opens it. -/
def opening : Form → Regex
  | static =>
    .word "import" ++ .atLeastOne Text.isBlank ++ .optional clause ++ .one isQuote
  | require => .word "require" ++ .many Text.isBlank ++ .char '(' ++ .one isQuote
  | dynamic => .word "import" ++ .many Text.isBlank ++ .char '(' ++ .one isQuote

/-- What comes after the target, from the quote that closes it. -/
def closing : Form → Regex
  | static => .one isQuote
  | require | dynamic => .one isQuote ++ .char ')'

/-- The target of a match that starts where the text starts, and the text after the match. The
target runs up to the next quote, which must be the one that closes it, and is not empty. -/
def match? (form : Form) (s : List Char) : Option (List Char × List Char) :=
  form.opening.first (fun inside =>
    let target := inside.takeWhile fun c => !isQuote c
    if target = [] then none
    else
      form.closing.first (fun rest => some (target, rest))
        (inside.dropWhile fun c => !isQuote c)) s

theorem length_lt_of_match? {form : Form} {s target rest : List Char}
    (found : form.match? s = some (target, rest)) : rest.length < s.length := by
  obtain ⟨inside, opened, found⟩ := Regex.exists_rest_of_first found
  simp only at found
  split at found
  · cases found
  next named =>
  obtain ⟨last, closed, found⟩ := Regex.exists_rest_of_first found
  cases found
  have opensWithin := (Regex.suffix_of_mem_rests opened).length_le
  have closesWithin := (Regex.suffix_of_mem_rests closed).length_le
  have whole := congrArg List.length
    (List.takeWhile_append_dropWhile (p := fun c => !isQuote c) (l := inside))
  rw [List.length_append] at whole
  have named := List.length_pos_iff.2 named
  omega

/-- The targets of all matches, each looked for from the end of the one before. -/
def targets (form : Form) (s : List Char) : List (List Char) :=
  match s with
  | [] => []
  | c :: tail =>
    match _found : form.match? (c :: tail) with
    | some (target, rest) => target :: form.targets rest
    | none => form.targets tail
termination_by s.length
decreasing_by
  · exact length_lt_of_match? _found
  · simp

end Form

/-- The package part of a target: the first segment, or the first two where the target starts with
`@`. Relative and absolute paths belong to no package and give the empty name. -/
def packagePart (target : List Char) : List Char :=
  match target with
  | '.' :: _ | '/' :: _ => []
  | '@' :: _ => Text.joinWith ['/'] ((Text.piecesAt '/' target).take 2)
  | _ => (Text.piecesAt '/' target).headD []

/-- The package that a target belongs to, the empty text for none. -/
def packageName (target : String) : String := String.ofList (packagePart target.toList)

/-- The targets that one form names in a text, in order of appearance. -/
def targetsOf (form : Form) (text : String) : List String :=
  (form.targets text.toList).map String.ofList

/-- The targets that a text names, form after form. -/
def targets (text : String) : List String := Form.all.flatMap (targetsOf · text)

/-- The names of the packages that a text refers to, in ascending order. -/
def references (text : String) : List String :=
  Names.ascending (((targets text).map packageName).filter (· ≠ ""))

end DependencyAudit.Import

import DependencyAudit.Text.Pieces

namespace DependencyAudit

/-- Where a path starts. -/
inductive Anchor where
  /-- At the current directory. -/
  | here
  /-- At the root. -/
  | root
  /-- At the root, written with exactly two slashes. -/
  | doubleRoot
  deriving DecidableEq, Repr

/-- A path: its names from the anchor on. -/
structure Path where
  anchor : Anchor
  names : List String
  deriving DecidableEq, Repr

namespace Path

/-- How an anchor is written. -/
def anchorText : Anchor → String
  | .here => ""
  | .root => "/"
  | .doubleRoot => "//"

/-- The anchor that leading slashes write. Three or more count as one. -/
def anchorOf : List Char → Anchor
  | '/' :: '/' :: '/' :: _ => .root
  | '/' :: '/' :: _ => .doubleRoot
  | '/' :: _ => .root
  | _ => .here

/-- The path that a text writes. Doubled slashes and the name `.` say nothing. -/
def ofString (s : String) : Path where
  anchor := anchorOf s.toList
  names := ((Text.piecesAt '/' s.toList).map String.ofList).filter fun name =>
    name ≠ "" ∧ name ≠ "."

/-- The text of a path; the current directory is `.`. -/
def toText (p : Path) : String :=
  if p.anchor = .here ∧ p.names = [] then "."
  else anchorText p.anchor ++ String.intercalate "/" p.names

instance : ToString Path := ⟨toText⟩

/-- The second path seen from the first; one with an anchor stands for itself. -/
def join (p q : Path) : Path :=
  if q.anchor = .here then ⟨p.anchor, p.names ++ q.names⟩ else q

/-- The path of an entry of a directory. -/
def child (p : Path) (name : String) : Path := ⟨p.anchor, p.names ++ [name]⟩

/-- The last name, empty for an anchor alone. -/
def name (p : Path) : String := p.names.getLast?.getD ""

/-- The last dot of a name and what follows it; none where the dot is the first or the last
character. -/
def suffixOf (name : List Char) : List Char :=
  let tail := name.reverse.takeWhile (· ≠ '.')
  if tail = [] ∨ name.length ≤ tail.length + 1 then [] else '.' :: tail.reverse

/-- The file name extension, with its dot. -/
def suffix (p : Path) : String := String.ofList (suffixOf p.name.toList)

/-- The names that follow a leading list of names. -/
def below? : List String → List String → Option (List String)
  | [], names => some names
  | _ :: _, [] => none
  | first :: root, name :: names => if first = name then below? root names else none

theorem length_lt_of_below? {root names : List String} {name : String}
    (found : (below? root names).bind List.head? = some name) :
    root.length < names.length := by
  induction root generalizing names with
  | nil => cases names <;> simp_all [below?]
  | cons first root ih =>
    cases names with
    | nil => simp [below?] at found
    | cons second names =>
      by_cases same : first = second
      · simp only [below?, same, if_true] at found
        have := ih found
        simp only [List.length_cons]
        omega
      · simp [below?, same] at found

/-- The names that lead from a directory to a path below it, or to itself. -/
def relativeTo? (p root : Path) : Option (List String) :=
  if p.anchor = root.anchor then below? root.names p.names else none

end Path

end DependencyAudit

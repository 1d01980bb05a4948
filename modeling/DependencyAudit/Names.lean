import DependencyAudit.Text.Point

namespace DependencyAudit

/-- A text as JSON has it: points of which no two next to each other are the halves of one
character. -/
structure Name where
  points : List Text.Point
  joined : Text.joinPairs points = points
  deriving DecidableEq, Repr

namespace Name

/-- The name that points write. -/
def ofPoints (points : List Text.Point) : Name :=
  ⟨Text.joinPairs points, Text.joinPairs_joinPairs points⟩

/-- A text as a name. -/
def ofString (s : String) : Name := ⟨Text.points s, Text.joinPairs_map_char s.toList⟩

instance : Coe String Name := ⟨ofString⟩

/-- The text that a name is, if all of its points are characters. -/
def text? (name : Name) : Option String := Text.ofPoints? name.points

/-- A name with a text before it and one after it. -/
def between (before after : String) (name : Name) : List Text.Point :=
  Text.points before ++ name.points ++ Text.points after

/-- Names are ordered by their code points. -/
instance : LT Name := ⟨fun a b => a.points.map Text.Point.code < b.points.map Text.Point.code⟩

instance (a b : Name) : Decidable (a < b) :=
  inferInstanceAs (Decidable (a.points.map Text.Point.code < b.points.map Text.Point.code))

end Name

namespace Names

variable {α : Type} [LT α] [DecidableLT α] [DecidableEq α]

/-- Puts a name into its place in an ascending list, unless it is there. -/
def insert (name : α) : List α → List α
  | [] => [name]
  | first :: rest =>
    if name < first then name :: first :: rest
    else if name = first then first :: rest
    else first :: insert name rest

/-- The ascending list of the names that occur. -/
def ascending (names : List α) : List α := names.foldr insert []

theorem mem_insert {name other : α} {names : List α} :
    other ∈ insert name names ↔ other = name ∨ other ∈ names := by
  induction names with
  | nil => simp [insert]
  | cons first rest ih =>
    unfold insert
    split
    · simp
    · split
      · next _ same => simp [same]
      · simp only [List.mem_cons, ih]
        constructor
        · rintro (h | h | h) <;> simp [h]
        · rintro (h | h | h) <;> simp [h]

@[simp] theorem mem_ascending {name : α} {names : List α} :
    name ∈ ascending names ↔ name ∈ names := by
  induction names with
  | nil => simp [ascending]
  | cons name' rest ih =>
    rw [ascending, List.foldr_cons, mem_insert, ← ascending, ih, List.mem_cons]

end Names

end DependencyAudit

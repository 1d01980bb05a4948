import DependencyAudit.Terminal.Markup
import DependencyAudit.Terminal.Wrap

namespace DependencyAudit.Terminal

/-- Halves of surrogate pairs that are laid out like the letters of a block for private use. -/
structure Veil where
  /-- The first letter of the block. -/
  first : Nat

namespace Veil

def size : Nat := 0x800

/-- The character that stands for a point. -/
def cover (v : Veil) : Text.Point → Char
  | .char c => c
  | half => Char.ofNat (v.first + (half.code - 0xD800))

/-- The point that a character stands for. -/
def lift (v : Veil) (c : Char) : Text.Point :=
  if v.first ≤ c.toNat && c.toNat < v.first + size then .ofUnit (0xD800 + (c.toNat - v.first))
  else .char c

/-- A block of which no letter is among the points. -/
def avoiding (points : List Text.Point) : Veil :=
  let blocks := (List.range 64).map (0xF0000 + size * ·)
  ⟨(blocks.find? fun first =>
    points.all fun p => p.code < first || first + size ≤ p.code).getD 0xF0000⟩

/-- The tag in a fault as it has been written. -/
def liftFault (v : Veil) : MarkupFault → MarkupFault
  | .notOpen tag position => .notOpen (Text.ofEscaped (tag.toList.map v.lift)) position
  | fault => fault

end Veil

variable [Platform]

/-- The lines that are shown for a text with markup. -/
def linesOf (width : Nat) (markup : String) : Except MarkupFault (List (List Char)) := do
  let text ← shown markup.toList
  match drawnFault? width [markup.toList] with
  | some fault => throw fault
  | none => return wrap .fold width text

/-- A text with markup as it is shown, without a line end after it. -/
def inline (width : Nat) (markup : String) : Except MarkupFault String := do
  let lines ← linesOf width markup
  return String.ofList (Text.joinWith ['\n'] lines)

/-- A text with markup as it is shown, on lines of its own. -/
def page (width : Nat) (markup : String) : Except MarkupFault String := do
  let lines ← linesOf width markup
  return String.ofList (Text.joinWith ['\n'] lines ++ ['\n'])

/-- Points with markup as they are shown, on lines of their own. -/
def pagePoints (width : Nat) (markup : List Text.Point) : Except MarkupFault (List Text.Point) :=
  let veil := Veil.avoiding markup
  match page width (String.ofList (markup.map veil.cover)) with
  | .ok text => .ok (text.toList.map veil.lift)
  | .error fault => .error (veil.liftFault fault)

end DependencyAudit.Terminal

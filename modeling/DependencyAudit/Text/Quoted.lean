import DependencyAudit.Text.Point
import DependencyAudit.Text.Printable

namespace DependencyAudit.Text

/-- The quote that encloses a text. -/
def quoteOf (s : List Char) : Char := if '\'' ∈ s ∧ '"' ∉ s then '"' else '\''

/-- One character inside a quoted text. -/
def escaped (quote c : Char) : List Char :=
  if c = quote ∨ c = '\\' then ['\\', c]
  else if c = '\n' then ['\\', 'n']
  else if c = '\r' then ['\\', 'r']
  else if c = '\t' then ['\\', 't']
  else if isPrintable c then [c]
  else if c.toNat < 0x100 then '\\' :: 'x' :: hex 2 c.toNat
  else if c.toNat < 0x10000 then '\\' :: 'u' :: hex 4 c.toNat
  else '\\' :: 'U' :: hex 8 c.toNat

/-- A point inside a quoted text. Half a surrogate pair is escaped. -/
def escapedPoint (quote : Char) : Point → List Char
  | .char c => escaped quote c
  | half => half.escaped

/-- Points between quotes. -/
def quotedPoints (points : List Point) : List Char :=
  let quote := quoteOf (points.filterMap Point.char?)
  quote :: points.flatMap (escapedPoint quote) ++ [quote]

/-- A text between quotes. -/
def quoted (s : String) : String := String.ofList (quotedPoints (points s))

end DependencyAudit.Text

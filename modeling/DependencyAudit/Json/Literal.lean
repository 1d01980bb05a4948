import DependencyAudit.Text.Point

namespace DependencyAudit.Json

/-- The escape of a 16-bit unit by its number. -/
def unitEscape (n : Nat) : List Char := '\\' :: 'u' :: Text.hex 4 n

/-- One character inside a literal. -/
def literalChar (c : Char) : List Char :=
  if c = '"' ∨ c = '\\' then ['\\', c]
  else if c = '\n' then ['\\', 'n']
  else if c = '\r' then ['\\', 'r']
  else if c = '\t' then ['\\', 't']
  else if c = '\x08' then ['\\', 'b']
  else if c = '\x0c' then ['\\', 'f']
  else if 0x20 ≤ c.toNat ∧ c.toNat ≤ 0x7E then [c]
  else if c.toNat < 0x10000 then unitEscape c.toNat
  else
    let above := c.toNat - 0x10000
    unitEscape (0xD800 + above / 0x400) ++ unitEscape (0xDC00 + above % 0x400)

/-- One point inside a literal. -/
def literalPoint : Text.Point → List Char
  | .char c => literalChar c
  | half => unitEscape half.code

/-- Points as a string literal. -/
def literal (points : List Text.Point) : List Char :=
  '"' :: points.flatMap literalPoint ++ ['"']

end DependencyAudit.Json

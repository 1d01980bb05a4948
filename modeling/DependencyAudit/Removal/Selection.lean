import DependencyAudit.Text.Pieces
import DependencyAudit.Text.Digit

namespace DependencyAudit.Removal

/-- What an answer picks. -/
structure Selection where
  /-- The places of the picked packages, from 0 on, in ascending order. -/
  indices : List Nat
  /-- The parts of the answer that are no numbers of listed packages, as they stand there. -/
  invalid : List String
  deriving DecidableEq, Repr

namespace Selection

/-- An answer that picks nothing. -/
def nothing : Selection := ⟨[], []⟩

/-- What separates the parts of an answer. -/
def separates (c : Char) : Bool := Text.isBlank c || c == ','

/-- The parts of an answer. -/
def tokens (answer : List Char) : List (List Char) :=
  (Text.pieces separates answer).filter (· ≠ [])

/-- The place of the listed package whose number a part of an answer is, if it is one. Numbers that
are too long are not converted. -/
def index? (count : Nat) (token : List Char) : Except Text.TooLong (Option Nat) :=
  if token.all Text.isDigit then
    if Text.digitLimit < token.length then .error ⟨token.length⟩
    else
      let number := Text.decimalValue token
      .ok (if 1 ≤ number ∧ number ≤ count then some (number - 1) else none)
  else .ok none

/-- Puts a place into its position among others, unless it is there. -/
def insertIndex (n : Nat) : List Nat → List Nat
  | [] => [n]
  | first :: rest =>
    if n < first then n :: first :: rest
    else if n = first then first :: rest
    else first :: insertIndex n rest

/-- What the parts of an answer pick. -/
def ofTokens (count : Nat) : List (List Char) → Except Text.TooLong Selection
  | [] => .ok nothing
  | token :: rest => do
    let index ← index? count token
    let others ← ofTokens count rest
    match index with
    | some n => return ⟨insertIndex n others.indices, others.invalid⟩
    | none => return ⟨others.indices, String.ofList token :: others.invalid⟩

/-- What an answer picks of `count` listed packages. -/
def parse (answer : String) (count : Nat) : Except Text.TooLong Selection :=
  let text := Text.trim answer.toList
  if text.map Char.toLower = "all".toList then .ok ⟨List.range count, []⟩
  else ofTokens count (tokens text)

/-- The picked ones of a list. -/
def pick {α : Type} (s : Selection) (listed : List α) : List α := s.indices.filterMap (listed[·]?)

end Selection

end DependencyAudit.Removal

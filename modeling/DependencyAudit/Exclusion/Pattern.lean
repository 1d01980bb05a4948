import DependencyAudit.Exclusion.Glob
import DependencyAudit.Text.Pieces
import DependencyAudit.Text.Quoted

namespace DependencyAudit.Exclusion

/-- How a pattern is looked for in the text of a path. -/
inductive Matcher where
  /-- Anywhere: some character of the path is in the class. -/
  | anywhere (admits : Char → Bool)
  /-- From the start of the path. -/
  | fromStart (r : Regex)

def Matcher.matches : Matcher → List Char → Bool
  | anywhere admits, s => s.any admits
  | fromStart r, s => r.matchesStart s

/-- A pattern: what it matches, and whether that is excluded or kept. -/
structure Pattern where
  excludes : Bool
  matcher : Matcher

/-- Why a line is no pattern. -/
inductive Fault where
  /-- The line names nothing, or a segment ends in a backslash. -/
  | invalid (line : String)
  /-- A class between brackets has a range that is out of order. -/
  | badRange
  deriving DecidableEq, Repr

def Fault.message : Fault → String
  | invalid line => "Invalid git pattern: " ++ Text.quoted line
  | badRange => "bad character range"

/-- A segment of a pattern. -/
inductive Segment where
  /-- Any number of names. -/
  | anyDepth
  /-- One name, whatever it is. -/
  | anyName
  | glob (items : List GlobItem)
  deriving DecidableEq, Repr

/-- The segment that a text writes, unless it ends in a backslash. -/
def Segment.ofText? (s : List Char) : Option Segment :=
  if s = ['*', '*'] then some .anyDepth
  else if s = ['*'] then some .anyName
  else (globItems? s).map .glob

/-- A character other than the line feed. -/
def notLineFeed (c : Char) : Bool := c != '\n'

/-- The end of a path, or the line feed that ends it. -/
def atEnd (s : List Char) : Bool := s == [] || s == ['\n']

/-- A slash or the end of a path. -/
def atSegmentEnd (s : List Char) : Bool := s.head? == some '/' || atEnd s

/-- The pattern of segments that follow others, if any; `needsSlash` tells whether a slash comes
before the next name. -/
def segmentsRegex? : (isFirst needsSlash : Bool) → List Segment → Option Regex
  | _, _, [] => some .empty
  | false, _, [.anyDepth] => some (.char '/')
  | true, _, .anyDepth :: rest => do
    let others ← segmentsRegex? false false rest
    return .optional (.atLeastOne notLineFeed ++ .char '/') ++ others
  | false, _, .anyDepth :: rest => do
    let others ← segmentsRegex? false true rest
    return .optional (.char '/' ++ .atLeastOne notLineFeed) ++ others
  | _, needsSlash, .anyName :: rest => do
    let others ←
      if rest = [] then some (.optional (.char '/') ++ .ahead atEnd)
      else segmentsRegex? false true rest
    return (if needsSlash then .char '/' else .empty) ++ .atLeastOne notSlash ++ others
  | _, needsSlash, .glob items :: rest => do
    let own ← globRegex? items
    let others ← if rest = [] then some (.ahead atSegmentEnd) else segmentsRegex? false true rest
    return (if needsSlash then .char '/' else .empty) ++ own ++ others

/-- Segments with `**` written once where it is repeated. -/
def collapse : List Segment → List Segment
  | .anyDepth :: .anyDepth :: rest => collapse (.anyDepth :: rest)
  | first :: rest => first :: collapse rest
  | [] => []

/-- The segments of a pattern as it is written. A pattern of one name, with or without a slash after
it, is looked for at any depth; a slash in front anchors it. -/
def anchored : List (List Char) → List (List Char)
  | [] :: rest => rest
  | [only] => if only = ['*', '*'] then [only] else [['*', '*'], only]
  | [only, []] => if only = ['*', '*'] then [only, []] else [['*', '*'], only, []]
  | segments => segments

/-- Segments in which an empty last one, after a closing slash, stands for all below. -/
def closed : List (List Char) → List (List Char)
  | [] => []
  | [[]] => [['*', '*']]
  | first :: rest => first :: closed rest

/-- How segments are looked for; `directoryOnly` tells whether a slash closed the pattern. -/
def matcherOf? (directoryOnly : Bool) : List Segment → Option Matcher
  | [.anyDepth] => some (.anywhere (if directoryOnly then (· == '/') else notLineFeed))
  | [.anyDepth, .anyName] => some (.anywhere notLineFeed)
  | [.anyDepth, .anyName, .anyDepth] => some (.anywhere (· == '/'))
  | segments => (segmentsRegex? true false segments).map .fromStart

/-- The line without the blanks at its end, unless a backslash holds the last one. -/
def withoutTrailingBlanks (s : List Char) : List Char :=
  if ['\\', ' '].isSuffixOf s then s else Text.trimEnd s

/-- Takes the mark of negation off a pattern. -/
def sign : List Char → Bool × List Char
  | '!' :: rest => (false, rest)
  | s => (true, s)

/-- The pattern that a line writes; none for blank lines and comments. -/
def Pattern.ofLine? (line : String) : Except Fault (Option Pattern) :=
  match withoutTrailingBlanks line.toList with
  | [] => .ok none
  | '#' :: _ => .ok none
  | s =>
    let (excludes, body) := sign s
    let written := Text.piecesAt '/' body
    let directoryOnly := written.getLast? == some [] && body != ['/']
    match (closed (anchored written)).mapM Segment.ofText? with
    | none | some [] => .error (.invalid line)
    | some segments =>
      match matcherOf? directoryOnly (collapse segments) with
      | some matcher => .ok (some ⟨excludes, matcher⟩)
      | none => .error .badRange

end DependencyAudit.Exclusion

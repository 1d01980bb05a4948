import DependencyAudit.Exclusion.Pattern
import DependencyAudit.Path

namespace DependencyAudit.Exclusion

/-- What a list of patterns says of a path: that it is excluded or kept, or nothing where no pattern
matches. -/
def decision (patterns : List Pattern) (path : List Char) : Option Bool :=
  (patterns.reverse.find? fun pattern => pattern.matcher.matches path).map (·.excludes)

/-- Patterns with the directory that paths are taken relative to. -/
structure Excluder where
  root : Path
  /-- All lines as given, blank ones and comments too. -/
  lines : List String
  patterns : List Pattern

/-- The patterns of a list of lines. -/
def patternsOf (lines : List String) : Except Fault (List Pattern) := do
  let found ← lines.mapM Pattern.ofLine?
  return found.filterMap id

namespace Excluder

/-- An excluder that leaves nothing out. -/
def none (root : Path) : Excluder := ⟨root, [], []⟩

/-- The excluder of the settings' and the command line's patterns. -/
def ofLines (root : Path) (settings commandLine : List String) : Except Fault Excluder := do
  let patterns ← patternsOf (settings ++ commandLine)
  return ⟨root, settings ++ commandLine, patterns⟩

/-- The text that patterns are matched with: the path from the root on, with a slash after a
directory. The root itself is empty as a directory. -/
def textOf (names : List String) (isDirectory : Bool) : List Char :=
  if names = [] then (if isDirectory then [] else ['.'])
  else (String.intercalate "/" names).toList ++ if isDirectory then ['/'] else []

/-- Whether a path is left out. What is not below the root is not. -/
def excludes (e : Excluder) (p : Path) (isDirectory : Bool) : Bool :=
  match p.relativeTo? e.root with
  | .none => false
  | some names => (decision e.patterns (textOf names isDirectory)).getD false

end Excluder

end DependencyAudit.Exclusion

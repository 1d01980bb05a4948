import DependencyAudit.Analysis
import DependencyAudit.Terminal.Page
import DependencyAudit.Text.Pieces

namespace DependencyAudit.Report

open Terminal

/-- A row of the summary: its key and its value, both with markup. -/
abbrev Row := String × String

/-- The rows of the summary. Directories that could not be listed come last, apart from the rest. -/
def rows (result : Result) (statistics : Statistics) : List Row :=
  [("Files scanned", toString statistics.filesScanned),
    ("References found", toString statistics.referencesFound),
    ("Declared dependencies", toString result.total),
    ("  used", s!"[green]{result.used.length}[/]"),
    ("  unused", s!"[red]{result.unused.length}[/]")] ++
  if statistics.skipped = [] then []
  else
    [("", ""), ("Unreadable directories", toString statistics.skipped.length)] ++
      statistics.skipped.map fun path => ("", s!"[dim]{path}[/]")

/-- The blanks on each side of a cell. -/
def cellPadding : Nat := 2

/-- Half of a number, where a half that is left over goes to the even neighbour. -/
def evenHalf (n : Nat) : Nat := n / 2 + n % 2 * (n / 2 % 2)

/-- Two column widths that together are at most `available`: neither is wider than that, the wider
one is cut down to the other, then both by half of what is left. -/
def fitColumns (available key value : Nat) : Nat × Nat :=
  let key := min available key
  let value := min available value
  let excess := key + value - available
  let cut := min excess (max key value - min key value)
  let left := excess - cut
  let keyCut := evenHalf left + if value < key then cut else 0
  let valueCut := left - evenHalf left + if value < key then 0 else cut
  (key - keyCut, value - valueCut)

/-- A text filled up with blanks to a width. -/
def padTo (width : Nat) (s : List Char) : List Char :=
  s ++ List.replicate (width - Text.columns s) ' '

/-- The lines of a cell in a column, all of the width of the column. A column that has room for the
padding only has no lines. -/
def cellLines (column : Nat) (cell : List Char) : List (List Char) :=
  let room := column - 2 * cellPadding
  let side := List.replicate cellPadding ' '
  if room = 0 then []
  else (wrap .ellipsis room cell).map fun line => side ++ padTo room line ++ side

/-- The lines of a row in columns of these widths, at least one. Under the last line of a cell the
column is blank. -/
def rowLines (keyColumn valueColumn : Nat) (row : List Char × List Char) : List (List Char) :=
  let keys := cellLines keyColumn row.1
  let values := cellLines valueColumn row.2
  (List.range (max 1 (max keys.length values.length))).map fun i =>
    keys.getD i (List.replicate keyColumn ' ') ++
      values.getD i (List.replicate valueColumn ' ')

/-- The columns of the widest line of some texts. -/
def widest (texts : List (List Char)) : Nat :=
  ((texts.flatMap (Text.pieces Text.endsLine)).map Text.columns).foldl max 0

/-- What stands between the corners of an upper border: a title in the middle, where there is room
for one. -/
def titled (width : Nat) (title : List Char) : List Char :=
  let title := takeColumns (width - 4) title
  let excess := width - 2 - Text.columns title
  let left := excess / 2
  List.replicate left '─' ++ title ++ List.replicate (excess - left) '─'

/-- A border of a frame of a width, with what stands between its corners. -/
def border (width : Nat) (first : Char) (inside : List Char) (last : Char) : List Char :=
  (first :: inside ++ [last]).take width

/-- Lines in a frame of a width, with a title. -/
def framed (width : Nat) (title : List Char) (lines : List (List Char)) : List (List Char) :=
  let inner := width - 4
  let body := if inner = 0 then [] else lines
  border width '╭' (titled width title) '╮' ::
    body.map (fun line => ['│', ' '] ++ padTo inner line ++ [' ', '│']) ++
    [border width '╰' (List.replicate (width - 2) '─') '╯']

section

variable [Platform]

/-- The text that is shown for a cell. -/
def shownCell (markup : String) : Except MarkupFault (List Char) := shown markup.toList

/-- The summary of an analysis on a terminal of a width. -/
def summary (width : Nat) (result : Result) (statistics : Statistics) :
    Except MarkupFault String := do
  let cells ← (rows result statistics).mapM fun (key, value) => do
    let key ← shownCell key
    let value ← shownCell value
    return (key, value)
  let markup := (rows result statistics).flatMap fun (key, value) => [key.toList, value.toList]
  if let some fault := drawnFault? width markup then throw fault
  let padding := 2 * cellPadding
  let (keyColumn, valueColumn) := fitColumns (width - 4)
    (widest (cells.map Prod.fst) + padding) (widest (cells.map Prod.snd) + padding)
  let lines := cells.flatMap (rowLines keyColumn valueColumn)
  return String.ofList
    ((framed width " Dependency Summary ".toList lines).flatMap (· ++ ['\n']))

end

/-- What is printed of a result: each unused name on a line of its own, or that there is none. -/
def listing (result : Result) : List (List Text.Point) :=
  if result.unused = [] then [Text.points "[bold green]✓[/] No unused dependencies found!"]
  else
    let count := result.unused.length
    Text.points s!"Found [bold red]{count}[/] unused dependencies:\n" ::
      result.unused.map (Name.between "  - [red]" "[/]") ++
      [Text.points s!"\nTotal: {count}/{result.total}"]

end DependencyAudit.Report

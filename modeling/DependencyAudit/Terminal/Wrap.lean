import DependencyAudit.Text.Pieces
import DependencyAudit.Text.Cluster

namespace DependencyAudit.Terminal

/-- The words of a line, each with the blanks after it; the first one also has those before it.
Blanks alone are no word. -/
def wordsOf (s : List Char) : List (List Char) :=
  let lead := s.takeWhile Text.isBlank
  match _found : s.dropWhile Text.isBlank with
  | [] => []
  | c :: body =>
    let rest := body.dropWhile fun d => !Text.isBlank d
    let word := c :: body.takeWhile fun d => !Text.isBlank d
    (lead ++ word ++ rest.takeWhile Text.isBlank) :: wordsOf (rest.dropWhile Text.isBlank)
termination_by s.length
decreasing_by
  have first := (List.dropWhile_suffix (l := s) Text.isBlank).length_le
  rw [_found, List.length_cons] at first
  have second := (List.dropWhile_suffix (l := body) fun d => !Text.isBlank d).length_le
  have third := (List.dropWhile_suffix
    (l := body.dropWhile fun d => !Text.isBlank d) Text.isBlank).length_le
  omega

/-- The pieces of a word that is cut before each cluster that does not fit into the width. `taken`
is the piece so far and `size` its columns. A first cluster for which even a whole line has no room
leaves an empty piece before it. -/
def cutClusters (width : Nat) (taken : List Char) (size : Nat) :
    List Text.Cluster → List (List Char)
  | [] => if size = 0 then [] else [taken]
  | cluster :: rest =>
    if width < size + cluster.size then
      taken :: cutClusters width cluster.chars cluster.size rest
    else cutClusters width (taken ++ cluster.chars) (size + cluster.size) rest

/-- The pieces of a word that is cut to a width. -/
def cut (width : Nat) (word : List Char) : List (List Char) :=
  cutClusters width [] 0 (Text.clusters word)

/-- What happens to a word for which no line has room. -/
inductive Overflow where
  /-- It goes on in the next line. -/
  | fold
  /-- Its end is not shown, which an ellipsis tells. -/
  | ellipsis
  deriving DecidableEq, Repr

/-- The lines that end before the last piece of a word, and that piece, where `line` is what the
current line has. A text does not start with an empty line. -/
def placePieces (line : List Char) (pieces : List (List Char)) :
    List (List Char) × List Char :=
  let placed := if line = [] then pieces.dropWhile (· = []) else line :: pieces
  (placed.dropLast, placed.getLastD [])

/-- The lines of a list of words, where `line` and its columns are what the current line has. -/
def fill (overflow : Overflow) (width : Nat) (line : List Char) (size : Nat) :
    List (List Char) → List (List Char)
  | [] => [line]
  | word :: rest =>
    let own := Text.columns (Text.trimEnd word)
    if size + own ≤ width then
      fill overflow width (line ++ word) (size + Text.columns word) rest
    else
      let pieces := if width < own ∧ overflow = .fold then cut width word else [word]
      if pieces = [] then fill overflow width (line ++ word) size rest
      else
        let (before, last) := placePieces line pieces
        before ++ fill overflow width last (Text.columns last) rest

/-- A line without the blanks at its end that are beyond the width. -/
def cropBlanks (width : Nat) (line : List Char) : List Char :=
  let blanks := (line.reverse.takeWhile Text.isBlank).length
  line.take (line.length - min blanks (line.length - width))

/-- The longest start of a line that fits into the width, by its clusters. Where half a cluster
would fill the width, a blank does. -/
def takeClusters (width : Nat) : List Text.Cluster → List Char
  | [] => []
  | cluster :: rest =>
    if cluster.size ≤ width then cluster.chars ++ takeClusters (width - cluster.size) rest
    else List.replicate width ' '

/-- The start of a line that fills a width, if the line is not shorter. -/
def takeColumns (width : Nat) (line : List Char) : List Char :=
  if width = 0 then [] else takeClusters width (Text.clusters line)

/-- A line within the width. -/
def cropLine (overflow : Overflow) (width : Nat) (line : List Char) : List Char :=
  let line := cropBlanks width line
  if Text.columns line ≤ width then line
  else
    match overflow with
    | .fold => takeColumns width line
    | .ellipsis => takeColumns (width - 1) line ++ ['…']

/-- The lines into which one line of a text is wrapped. -/
def wrapLine (overflow : Overflow) (width : Nat) (line : List Char) : List (List Char) :=
  let lines :=
    match wordsOf line with
    | [] => [line]
    | words => fill overflow width [] 0 words
  lines.map (cropLine overflow width)

/-- The lines into which a text is wrapped. -/
def wrap (overflow : Overflow) (width : Nat) (s : List Char) : List (List Char) :=
  (Text.piecesAt '\n' s).flatMap (wrapLine overflow width)

end DependencyAudit.Terminal

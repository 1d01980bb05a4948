import DependencyAudit.Platform
import DependencyAudit.Terminal.Style

namespace DependencyAudit.Terminal

/-- Why a text with markup is refused. Positions count the characters of the text with markup. -/
inductive MarkupFault where
  | nothingToClose (position : Nat)
  | notOpen (tag : String) (position : Nat)
  /-- The parameters of a tag that names a handler are not read. -/
  | handler (message : String)
  /-- The style of a tag has a color with a component that is not read. -/
  | component (fault : ComponentFault)
  deriving DecidableEq, Repr

def MarkupFault.message : MarkupFault → String
  | nothingToClose position => s!"closing tag '[/]' at position {position} has nothing to close"
  | notOpen tag position =>
    s!"closing tag '[{tag}]' at position {position} doesn't match any open tag"
  | handler message => message
  | component fault => fault.message

/-- The characters with which a tag can start. -/
def startsTag (c : Char) : Bool :=
  ('a' ≤ c && c ≤ 'z') || c == '#' || c == '/' || c == '@'

/-- The tag whose bracket has just been opened, and the text after its bracket. -/
def tag? : List Char → Option (List Char × List Char)
  | [] => none
  | c :: rest =>
    if startsTag c then
      match rest.dropWhile fun d => d != ']' && d != '[' with
      | ']' :: afterwards => some (c :: rest.takeWhile fun d => d != ']' && d != '[', afterwards)
      | _ => none
    else none

theorem length_lt_of_tag? {s tag rest : List Char} (found : tag? s = some (tag, rest)) :
    rest.length < s.length := by
  cases s with
  | nil => simp [tag?] at found
  | cons c tail =>
    have shorter := (List.dropWhile_suffix (l := tail) fun d => d != ']' && d != '[').length_le
    simp only [tag?] at found
    split at found
    · split at found
      · next shape =>
        cases found
        rw [shape, List.length_cons] at shorter
        simp only [List.length_cons]
        omega
      · cases found
    · cases found

/-- What a tag is called: the text before its equals sign. -/
def tagName (tag : List Char) : List Char := tag.takeWhile (· ≠ '=')

/-- What stands behind the equals sign of a tag, if it has one. -/
def tagParameters? (tag : List Char) : Option (List Char) :=
  match tag.dropWhile (· ≠ '=') with
  | [] => none
  | _ :: parameters => some parameters

/-- The style that a tag opens or closes. -/
def tagStyle (name : List Char) : Except MarkupFault (List Char) :=
  (styleText name).mapError .component

/-- A tag that has been opened: the style under which it is known, and its parameters. -/
structure OpenTag where
  style : List Char
  parameters : Option (List Char)
  deriving DecidableEq, Repr

namespace OpenTag

/-- The tag that is opened. -/
def ofTag (tag : List Char) : Except MarkupFault OpenTag := do
  let style ← tagStyle (tagName tag)
  return ⟨style, tagParameters? tag⟩

/-- Closes a tag. The parameters of one that names a handler are read then. -/
def close [Platform] (tag : OpenTag) : Except MarkupFault Unit :=
  match tag.style, tag.parameters with
  | '@' :: _, some (first :: rest) =>
    match Platform.handlerFault? (first :: rest) with
    | some message => .error (.handler message)
    | none => .ok ()
  | _, _ => .ok ()

/-- Why a tag cannot be drawn, if it cannot: its style is read once more, with the parameters behind
it. -/
def drawFault? (tag : OpenTag) : Option MarkupFault :=
  match tagStyle (tag.style ++ (tag.parameters.map (' ' :: ·)).getD []) with
  | .error fault => some fault
  | .ok _ => none

end OpenTag

/-- The open tags, the last one first, after a tag at a position. -/
def stepTag [Platform] (position : Nat) (opened : List OpenTag) (tag : List Char) :
    Except MarkupFault (List OpenTag) :=
  match tag with
  | '/' :: closed =>
    let name := Text.trim (tagName closed)
    if name = [] then
      match opened with
      | [] => .error (.nothingToClose position)
      | last :: rest => do
        last.close
        return rest
    else do
      let style ← tagStyle name
      match opened.find? (·.style = style) with
      | some last => do
        last.close
        return opened.eraseP (·.style = style)
      | none => throw (.notOpen (String.ofList tag) position)
  | _ => do
    let last ← OpenTag.ofTag tag
    return last :: opened

/-- The tag that comes next, behind backslashes at most, and the text after it. -/
def nextTag? (s : List Char) : Option (List Char × List Char) :=
  match s.dropWhile (· == '\\') with
  | '[' :: inner => tag? inner
  | _ => none

theorem length_lt_of_nextTag? {s : List Char} {found : List Char × List Char}
    (next : nextTag? s = some found) : found.2.length < s.length := by
  have shorter := (List.dropWhile_suffix (l := s) (· == '\\')).length_le
  unfold nextTag? at next
  split at next
  · next shape =>
    rw [shape, List.length_cons] at shorter
    have := length_lt_of_tag? next
    omega
  · cases next

/-- The text that is shown for markup from a position on, where some tags are open. -/
def shownFrom [Platform] (position : Nat) (opened : List OpenTag) (s : List Char) :
    Except MarkupFault (List Char) :=
  match s with
  | [] => .ok []
  | c :: rest =>
    let slashes := (c :: rest).takeWhile (· == '\\')
    match _found : nextTag? (c :: rest) with
    | some tagged =>
      let kept := List.replicate (slashes.length / 2) '\\'
      let tagPosition := position + slashes.length
      let after := tagPosition + tagged.1.length + 2
      if slashes.length % 2 = 1 then do
        let shown ← shownFrom after opened tagged.2
        return kept ++ '[' :: tagged.1 ++ ']' :: shown
      else do
        let opened ← stepTag tagPosition opened tagged.1
        let shown ← shownFrom after opened tagged.2
        return kept ++ shown
    | none =>
      if c = '\\' ∧ rest.head? = some '[' then do
        let shown ← shownFrom (position + 2) opened rest.tail
        return '[' :: shown
      else do
        let shown ← shownFrom (position + 1) opened rest
        return c :: shown
termination_by s.length
decreasing_by
  · exact length_lt_of_nextTag? _found
  · exact length_lt_of_nextTag? _found
  · simp only [List.length_cons]
    have := List.length_tail (l := rest)
    omega
  · simp

/-- The text that is shown for a text with markup. -/
def shown [Platform] (s : List Char) : Except MarkupFault (List Char) := shownFrom 0 [] s

/-- Why tags of a text cannot be drawn, for those that cannot, in their order. -/
def drawFaults (s : List Char) : List MarkupFault :=
  match s with
  | [] => []
  | c :: rest =>
    let slashes := (c :: rest).takeWhile (· == '\\')
    match _found : nextTag? (c :: rest) with
    | some tagged =>
      let later := drawFaults tagged.2
      if slashes.length % 2 = 1 ∨ tagged.1.head? = some '/' then later
      else ((OpenTag.ofTag tagged.1).toOption.bind OpenTag.drawFault?).toList ++ later
    | none =>
      if c = '\\' ∧ rest.head? = some '[' then drawFaults rest.tail else drawFaults rest
termination_by s.length
decreasing_by
  · exact length_lt_of_nextTag? _found
  · simp only [List.length_cons]
    have := List.length_tail (l := rest)
    omega
  · simp

/-- Why texts with markup that are printed together cannot be drawn, if they cannot. -/
def drawnFault? [Platform] (width : Nat) (texts : List (List Char)) : Option MarkupFault :=
  (Platform.drawn? width texts).bind ((texts.flatMap drawFaults)[·]?)

end DependencyAudit.Terminal

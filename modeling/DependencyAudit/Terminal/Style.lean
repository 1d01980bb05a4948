import DependencyAudit.Terminal.Color
import DependencyAudit.Text.Pieces

namespace DependencyAudit.Terminal

/-- A trait of letters that a style turns on or off. -/
inductive Trait where
  | bold
  | dim
  | italic
  | underline
  | blink
  | fastBlink
  | reverse
  | conceal
  | strike
  | doubleUnderline
  | frame
  | encircle
  | overline
  deriving DecidableEq, Repr

namespace Trait

/-- The traits in the order in which a style lists them. -/
def all : List Trait :=
  [bold, dim, italic, underline, blink, fastBlink, reverse, conceal, strike, doubleUnderline,
    frame, encircle, overline]

def name : Trait → String
  | bold => "bold"
  | dim => "dim"
  | italic => "italic"
  | underline => "underline"
  | blink => "blink"
  | fastBlink => "blink2"
  | reverse => "reverse"
  | conceal => "conceal"
  | strike => "strike"
  | doubleUnderline => "underline2"
  | frame => "frame"
  | encircle => "encircle"
  | overline => "overline"

/-- The short word for a trait, where there is one. -/
def shortName? : Trait → Option String
  | bold => some "b"
  | dim => some "d"
  | italic => some "i"
  | underline => some "u"
  | reverse => some "r"
  | conceal => some "c"
  | strike => some "s"
  | doubleUnderline => some "uu"
  | overline => some "o"
  | blink | fastBlink | frame | encircle => none

/-- The trait that a word names. -/
def ofWord? (word : List Char) : Option Trait :=
  all.find? fun t => t.name.toList = word || t.shortName?.any (·.toList = word)

end Trait

/-- A style. Of the traits that are set more than once the first in the list counts. -/
structure Style where
  traits : List (Trait × Bool)
  color : Option (List Char)
  background : Option (List Char)
  link : Option (List Char)
  deriving DecidableEq, Repr

namespace Style

/-- The style that sets nothing. -/
def plain : Style := ⟨[], none, none, none⟩

/-- What the words add to a style, if they are words of a style. The word after `on` is the color of
the background, the one after `not` a trait that is turned off, and the one after `link` an address
in its own spelling. -/
def addWords (style : Style) : List (List Char) → Except ComponentFault (Option Style)
  | [] => .ok (some style)
  | word :: rest =>
    let key := Text.lower word
    if key = "on".toList then
      match rest with
      | [] => .ok none
      | name :: rest => do
        let some color ← color? name | return none
        addWords { style with background := some color } rest
    else if key = "not".toList then
      match rest with
      | [] => .ok none
      | name :: rest =>
        match Trait.ofWord? name with
        | some t => addWords { style with traits := (t, false) :: style.traits } rest
        | none => .ok none
    else if key = "link".toList then
      match rest with
      | [] => .ok none
      | address :: rest => addWords { style with link := some address } rest
    else
      match Trait.ofWord? key with
      | some t => addWords { style with traits := (t, true) :: style.traits } rest
      | none => do
        let some color ← color? key | return none
        addWords { style with color := some color } rest

/-- The text of a trait that a style sets. -/
def traitText? (style : Style) (t : Trait) : Option (List Char) :=
  (style.traits.lookup t).map fun isOn => if isOn then t.name.toList else s!"not {t.name}".toList

/-- The words of a style in their order. -/
def wordsOf (style : Style) : List (List Char) :=
  Trait.all.filterMap style.traitText? ++ style.color.toList ++
    style.background.toList.flatMap (["on".toList, ·]) ++
    style.link.toList.flatMap (["link".toList, ·])

/-- The text of a style. -/
def text (style : Style) : List Char :=
  match style.wordsOf with
  | [] => "none".toList
  | words => Text.joinWith [' '] words

end Style

/-- The text under which a style is known. A text that does not write a style is known in lower
case, without blanks around it. -/
def styleText (s : List Char) : Except ComponentFault (List Char) := do
  match ← Style.plain.addWords ((Text.pieces Text.isBlank s).filter (· ≠ [])) with
  | some style => return style.text
  | none => return Text.lower (Text.trim s)

end DependencyAudit.Terminal

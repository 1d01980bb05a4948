import DependencyAudit.Json.Value

namespace DependencyAudit.Json

/-- What a text lacks or has too much. -/
inductive Complaint where
  | noValue
  | noPropertyName
  | noColon
  | noComma
  | extraData
  | unterminatedString
  | controlCharacter
  | badEscape
  | badUnicodeEscape
  | byteOrderMark
  deriving DecidableEq, Repr

/-- The wording of a complaint. -/
def Complaint.message : Complaint → String
  | noValue => "Expecting value"
  | noPropertyName => "Expecting property name enclosed in double quotes"
  | noColon => "Expecting ':' delimiter"
  | noComma => "Expecting ',' delimiter"
  | extraData => "Extra data"
  | unterminatedString => "Unterminated string starting at"
  | controlCharacter => "Invalid control character at"
  | badEscape => "Invalid \\escape"
  | badUnicodeEscape => "Invalid \\uXXXX escape"
  | byteOrderMark => "Unexpected UTF-8 BOM (decode using utf-8-sig)"

/-- What other values stand in. -/
inductive Container where
  | array
  | object
  deriving DecidableEq, Repr

def Container.name : Container → String
  | array => "array"
  | object => "object"

/-- An array or object that is nested deeper than values are read. -/
structure TooDeep where
  container : Container
  deriving DecidableEq, Repr

def TooDeep.message (place : TooDeep) : String :=
  s!"maximum recursion depth exceeded while decoding a JSON {place.container.name} from a " ++
    "unicode string"

/-- Why reading stops. -/
inductive Stop where
  /-- The text is malformed where `left` of its characters are left. -/
  | malformed (complaint : Complaint) (left : Nat)
  /-- A whole number is too long to be converted. -/
  | tooLong (number : Text.TooLong)
  | tooDeep (place : TooDeep)
  deriving DecidableEq, Repr

/-- Refuses where the given text is left. A reader otherwise gives what it read and the rest of the
text. -/
def refuse {α : Type} (complaint : Complaint) (left : List Char) :
    Except Stop (α × List Char) :=
  .error (.malformed complaint left.length)

/-- The four characters that may stand between tokens. -/
def isSpace (c : Char) : Bool := c == ' ' || c == '\t' || c == '\n' || c == '\r'

/-- The text from its first character that is no space on. -/
def skipSpace (s : List Char) : List Char := s.dropWhile isSpace

/-- The rest of a text that starts with a word. -/
def afterWord? : List Char → List Char → Option (List Char)
  | [], s => some s
  | _ :: _, [] => none
  | w :: word, c :: s => if w = c then afterWord? word s else none

/-- The character that a short escape stands for. -/
def shortEscape? : Char → Option Char
  | '"' => some '"'
  | '\\' => some '\\'
  | '/' => some '/'
  | 'b' => some '\x08'
  | 'f' => some '\x0c'
  | 'n' => some '\n'
  | 'r' => some '\r'
  | 't' => some '\t'
  | _ => none

/-- The points of a string literal up to its closing quote. Surrogates that escapes name stand alone
here. `opened` is the text from the opening quote on. -/
def readPoints (opened : List Char) : List Char → Except Stop (List Text.Point × List Char)
  | [] => refuse .unterminatedString opened
  | '"' :: rest => .ok ([], rest)
  | ['\\'] => refuse .unterminatedString opened
  | '\\' :: 'u' :: a :: b :: c :: d :: rest =>
    match Text.hexNumber? [a, b, c, d], rest with
    | some n, _ :: _ => do
      let (points, rest) ← readPoints opened rest
      .ok (.ofUnit n :: points, rest)
    | _, _ => refuse .badUnicodeEscape ('u' :: a :: b :: c :: d :: rest)
  | '\\' :: 'u' :: rest => refuse .badUnicodeEscape ('u' :: rest)
  | '\\' :: c :: rest =>
    match shortEscape? c with
    | some plain => do
      let (points, rest) ← readPoints opened rest
      .ok (.char plain :: points, rest)
    | none => refuse .badEscape ('\\' :: c :: rest)
  | c :: rest =>
    if c.toNat < 0x20 then refuse .controlCharacter (c :: rest)
    else do
      let (points, rest) ← readPoints opened rest
      .ok (.char c :: points, rest)

/-- The text of a string literal, after its opening quote. -/
def readString (s : List Char) : Except Stop (Name × List Char) := do
  let (points, rest) ← readPoints ('"' :: s) s
  .ok (.ofPoints points, rest)

/-- The value of a list of ASCII digits. -/
def numberOf (digits : List Char) : Nat := digits.foldl (fun n c => 10 * n + (c.toNat - 0x30)) 0

/-- The digits before the point: a zero stands alone. -/
def wholeDigits? : List Char → Option (List Char × List Char)
  | '0' :: rest => some (['0'], rest)
  | c :: rest =>
    if c.isDigit then some (c :: rest.takeWhile Char.isDigit, rest.dropWhile Char.isDigit)
    else none
  | [] => none

/-- The digits after a point, where at least one is there. -/
def fractionDigits : List Char → List Char × List Char
  | '.' :: c :: rest =>
    if c.isDigit then (c :: rest.takeWhile Char.isDigit, rest.dropWhile Char.isDigit)
    else ([], '.' :: c :: rest)
  | s => ([], s)

/-- The digits of an exponent with its sign removed, where at least one is there. -/
def signedDigits? : List Char → Option (Int × List Char)
  | '-' :: c :: rest =>
    if c.isDigit then
      some (-(numberOf (c :: rest.takeWhile Char.isDigit) : Int), rest.dropWhile Char.isDigit)
    else none
  | '+' :: c :: rest | c :: rest =>
    if c.isDigit then
      some ((numberOf (c :: rest.takeWhile Char.isDigit) : Int), rest.dropWhile Char.isDigit)
    else none
  | [] => none

/-- The exponent after an `e` of either case, where it has digits. -/
def exponent? : List Char → Option (Int × List Char)
  | 'e' :: rest | 'E' :: rest => signedDigits? rest
  | _ => none

/-- The number without its sign; `start` is the text from the sign on. -/
def readUnsigned (negative : Bool) (start s : List Char) : Except Stop (Number × List Char) :=
  match wholeDigits? s with
  | none => refuse .noValue start
  | some (whole, rest) =>
    match fractionDigits rest, exponent? (fractionDigits rest).2 with
    | ([], rest), none =>
      if Text.digitLimit < whole.length then .error (.tooLong ⟨whole.length⟩)
      else .ok (.whole (if negative then -(numberOf whole : Int) else numberOf whole), rest)
    | (fraction, rest), none =>
      .ok (.decimal negative (numberOf (whole ++ fraction)) (-(fraction.length : Int)), rest)
    | (fraction, _), some (exponent, rest) =>
      .ok (.decimal negative (numberOf (whole ++ fraction)) (exponent - fraction.length), rest)

/-- The words that stand for values. -/
def words : List (List Char × Value) :=
  [("null".toList, .null), ("true".toList, .bool true), ("false".toList, .bool false),
    ("NaN".toList, .number .undefined), ("Infinity".toList, .number (.infinite false)),
    ("-Infinity".toList, .number (.infinite true))]

/-- A word or a number. -/
def readScalar (s : List Char) : Except Stop (Value × List Char) :=
  match words.findSome? fun (word, value) => (afterWord? word s).map fun rest => (value, rest) with
  | some found => .ok found
  | none => do
    let (number, rest) ←
      match s with
      | '-' :: unsigned => readUnsigned true s unsigned
      | _ => readUnsigned false s s
    .ok (.number number, rest)

/-- The items of an array from its first item on, at most `n` of them. -/
def readItems (readValue : List Char → Except Stop (Value × List Char)) :
    Nat → List Char → Except Stop (List Value × List Char)
  | 0, s => refuse .noValue s
  | n + 1, s => do
    let (item, rest) ← readValue s
    match skipSpace rest with
    | ']' :: rest => .ok ([item], rest)
    | ',' :: rest => do
      let (items, rest) ← readItems readValue n (skipSpace rest)
      .ok (item :: items, rest)
    | rest => refuse .noComma rest

/-- The members of an object from its first key on, at most `n` of them. -/
def readMembers (readValue : List Char → Except Stop (Value × List Char)) :
    Nat → List Char → Except Stop (List (Name × Value) × List Char)
  | 0, s => refuse .noPropertyName s
  | n + 1, '"' :: s => do
    let (key, rest) ← readString s
    match skipSpace rest with
    | ':' :: rest => do
      let (value, rest) ← readValue (skipSpace rest)
      match skipSpace rest with
      | '\x7d' :: rest => .ok ([(key, value)], rest)
      | ',' :: rest => do
        let (members, rest) ← readMembers readValue n (skipSpace rest)
        .ok ((key, value) :: members, rest)
      | rest => refuse .noComma rest
    | rest => refuse .noColon rest
  | _ + 1, s => refuse .noPropertyName s

/-- A value in which at most `n` arrays and objects are open at once. -/
def readValue (n : Nat) (s : List Char) : Except Stop (Value × List Char) :=
  match n, s with
  | _, '"' :: rest => do
    let (name, rest) ← readString rest
    .ok (.text name, rest)
  | 0, '[' :: _ => .error (.tooDeep ⟨.array⟩)
  | n + 1, '[' :: rest =>
    match skipSpace rest with
    | ']' :: rest => .ok (.array [], rest)
    | rest => do
      let (items, rest) ← readItems (readValue n) rest.length rest
      .ok (.array items, rest)
  | 0, '\x7b' :: _ => .error (.tooDeep ⟨.object⟩)
  | n + 1, '\x7b' :: rest =>
    match skipSpace rest with
    | '\x7d' :: rest => .ok (.object [], rest)
    | rest => do
      let (members, rest) ← readMembers (readValue n) rest.length rest
      .ok (.object (Members.ofWritten members), rest)
  | _, s => readScalar s

/-- A text that is one value and nothing else but space around it. At most `limit` arrays and objects
are open at once. -/
def readText (limit : Nat) (s : List Char) : Except Stop Value :=
  match s with
  | '\uFEFF' :: _ => .error (.malformed .byteOrderMark s.length)
  | _ => do
    let (value, rest) ← readValue limit (skipSpace s)
    match skipSpace rest with
    | [] => .ok value
    | rest => .error (.malformed .extraData rest.length)

/-- Why a text is refused. -/
inductive Fault where
  /-- The text is malformed at a position, counted from 0. -/
  | malformed (complaint : Complaint) (line column position : Nat)
  /-- A whole number is too long to be converted. -/
  | tooLong (number : Text.TooLong)
  | tooDeep (place : TooDeep)
  deriving DecidableEq, Repr

/-- The refusal at the place where reading stopped. Lines end with a line feed only; lines and
columns count from 1. -/
def Stop.toFault (s : List Char) : Stop → Fault
  | .tooLong number => .tooLong number
  | .tooDeep place => .tooDeep place
  | .malformed complaint left =>
    let before := s.take (s.length - left)
    let lastLine := before.reverse.takeWhile (· ≠ '\n')
    .malformed complaint (before.count '\n' + 1) (lastLine.length + 1) before.length

/-- The wording of a refusal. -/
def Fault.message : Fault → String
  | .malformed complaint line column position =>
    s!"{complaint.message}: line {line} column {column} (char {position})"
  | .tooLong number => number.message
  | .tooDeep place => place.message

/-- Reads a text as one JSON value, nested at most `limit` deep. -/
def parse (limit : Nat) (text : String) : Except Fault Value :=
  (readText limit text.toList).mapError (Stop.toFault text.toList)

end DependencyAudit.Json

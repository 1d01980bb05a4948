import DependencyAudit.Decimal.Shortest
import DependencyAudit.Json.Value
import DependencyAudit.Text.Quoted

namespace DependencyAudit.Json

/-- A positive double by its digits and the place of the point before them: positional from 0.0001
up to but not including 10 ^ 16, with an exponent of at least two digits outside. -/
def shownDigits (digits : Nat) (point : Int) : String :=
  let shown := (Nat.toDigits 10 digits).reverse.dropWhile (· == '0') |>.reverse
  let zeros (n : Nat) : List Char := List.replicate n '0'
  if -4 < point ∧ point ≤ 16 then
    if point ≤ 0 then String.ofList ("0.".toList ++ zeros (-point).toNat ++ shown)
    else
      let before := point.toNat
      if shown.length ≤ before then
        String.ofList (shown ++ zeros (before - shown.length) ++ ".0".toList)
      else String.ofList (shown.take before ++ '.' :: shown.drop before)
  else
    let exponent := point - 1
    let size := Nat.toDigits 10 exponent.natAbs
    let fraction := if shown.length ≤ 1 then [] else '.' :: shown.drop 1
    String.ofList (shown.take 1 ++ fraction ++ ['e', if exponent < 0 then '-' else '+'] ++
      zeros (2 - size.length) ++ size)

/-- The double nearest to a decimal number. -/
def shownDecimal (negative : Bool) (digits : Nat) (exponent : Int) : String :=
  let sign := if negative then "-" else ""
  match Decimal.Double.ofDecimal digits exponent with
  | .infinite => sign ++ "inf"
  | .finite 0 _ => sign ++ "0.0"
  | .finite significand exponent =>
    let (digits, point) := Decimal.shortest significand exponent
    sign ++ shownDigits digits point

def Number.shown : Number → String
  | whole value => toString value
  | decimal negative digits exponent => shownDecimal negative digits exponent
  | infinite negative => if negative then "-inf" else "inf"
  | undefined => "nan"

/-- A text inside a message. -/
def shownName (name : Name) : String := String.ofList (Text.quotedPoints name.points)

mutual

/-- The text of a value inside a message. -/
def Value.shown : Value → String
  | .null => "None"
  | .bool true => "True"
  | .bool false => "False"
  | .number n => n.shown
  | .text name => shownName name
  | .array items => "[" ++ String.intercalate ", " (shownItems items) ++ "]"
  | .object members => "\x7b" ++ String.intercalate ", " (shownMembers members) ++ "\x7d"

def shownItems : List Value → List String
  | [] => []
  | item :: rest => item.shown :: shownItems rest

def shownMembers : List (Name × Value) → List String
  | [] => []
  | (key, value) :: rest => (shownName key ++ ": " ++ value.shown) :: shownMembers rest

end

end DependencyAudit.Json

import DependencyAudit.Names

namespace DependencyAudit.Json

/-- A number as a text writes it: whole numbers apart from those with a fraction or an exponent,
and the three values that are no numbers of the standard. -/
inductive Number where
  /-- A number without fraction and exponent. -/
  | whole (value : Int)
  /-- The number `digits · 10 ^ exponent`, written with a fraction or an exponent. -/
  | decimal (negative : Bool) (digits : Nat) (exponent : Int)
  | infinite (negative : Bool)
  | undefined
  deriving DecidableEq, Repr

/-- A JSON value. -/
inductive Value where
  | null
  | bool (b : Bool)
  | number (n : Number)
  | text (name : Name)
  | array (items : List Value)
  | object (members : List (Name × Value))

/-- The members of an object, in the order of their keys. -/
abbrev Members := List (Name × Value)

namespace Members

/-- The value of a key. -/
def get? (key : Name) (members : Members) : Option Value := members.lookup key

/-- Sets the value of a key, which keeps the place that it has. -/
def put (key : Name) (value : Value) : Members → Members
  | [] => [(key, value)]
  | (first, old) :: rest =>
    if first = key then (key, value) :: rest else (first, old) :: put key value rest

/-- The members of an object as written: a repeated key keeps its first place and takes its last
value. -/
def ofWritten (pairs : List (Name × Value)) : Members :=
  pairs.foldl (fun members pair => put pair.1 pair.2 members) []

/-- The keys, in order. -/
def keys (members : Members) : List Name := members.map Prod.fst

end Members

namespace Value

/-- The text that a value is, if it is one. -/
def name? : Value → Option Name
  | .text name => some name
  | _ => none

/-- The texts of an array that holds nothing else. -/
def names? : Value → Option (List Name)
  | .array items => items.mapM name?
  | _ => none

end Value

end DependencyAudit.Json

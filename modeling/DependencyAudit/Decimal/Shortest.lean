namespace DependencyAudit.Decimal

/-- A positive fraction or zero. -/
structure Ratio where
  num : Nat
  den : Nat
  deriving DecidableEq, Repr

/-- The number `digits · 10 ^ exponent`. -/
def Ratio.ofDecimal (digits : Nat) (exponent : Int) : Ratio :=
  if 0 ≤ exponent then ⟨digits * Nat.pow 10 exponent.toNat, 1⟩
  else ⟨digits, Nat.pow 10 (-exponent).toNat⟩

/-- The number `significand · 2 ^ exponent`. -/
def Ratio.ofBinary (significand : Nat) (exponent : Int) : Ratio :=
  if 0 ≤ exponent then ⟨significand * Nat.pow 2 exponent.toNat, 1⟩
  else ⟨significand, Nat.pow 2 (-exponent).toNat⟩

/-- The whole number nearest to a ratio; of two the even one. -/
def Ratio.round (r : Ratio) : Nat :=
  let below := r.num / r.den
  let twice := 2 * (r.num % r.den)
  if twice < r.den then below
  else if r.den < twice then below + 1
  else below + below % 2

def Ratio.le (r s : Ratio) : Bool := r.num * s.den ≤ s.num * r.den
def Ratio.lt (r s : Ratio) : Bool := r.num * s.den < s.num * r.den

/-- The ratio divided by a power of two. -/
def Ratio.shift (r : Ratio) (exponent : Int) : Ratio :=
  if 0 ≤ exponent then ⟨r.num, r.den * Nat.pow 2 exponent.toNat⟩
  else ⟨r.num * Nat.pow 2 (-exponent).toNat, r.den⟩

/-- A double without its sign. -/
inductive Double where
  /-- The number `significand · 2 ^ exponent`, with a significand of at most 53 bits, as many as
  the least exponent -1074 allows. -/
  | finite (significand : Nat) (exponent : Int)
  | infinite
  deriving DecidableEq, Repr

/-- The double nearest to a ratio. -/
def Double.ofRatio (r : Ratio) : Double :=
  if r.num = 0 then .finite 0 (-1074)
  else
    let guess : Int := (r.num.log2 : Int) - r.den.log2 - 52
    let exponent := if (r.shift guess).lt ⟨Nat.pow 2 52, 1⟩ then guess - 1 else guess
    let exponent := max exponent (-1074)
    let significand := (r.shift exponent).round
    if significand = Nat.pow 2 53 then
      if 970 < exponent then .infinite else .finite (Nat.pow 2 52) (exponent + 1)
    else if 971 < exponent then .infinite
    else .finite significand exponent

/-- The number of decimal digits of a whole number, none for zero. -/
def digitCount (n : Nat) : Nat := if n = 0 then 0 else (Nat.toDigits 10 n).length

/-- The double nearest to a decimal number. Numbers far out of range are told by their size, so that
no power of ten is ever larger than a double needs. -/
def Double.ofDecimal (digits : Nat) (exponent : Int) : Double :=
  if digits = 0 then .finite 0 (-1074)
  else if 400 < digitCount digits + exponent then .infinite
  else if digitCount digits + exponent < -400 then .finite 0 (-1074)
  else Double.ofRatio (.ofDecimal digits exponent)

/-- Where the decimal point of a positive ratio stands: the least `p` with `r < 10 ^ p`. -/
def pointOf (r : Ratio) : Int :=
  if r.den ≤ r.num then digitCount (r.num / r.den)
  else 1 - (digitCount ((r.den + r.num - 1) / r.num - 1) : Int)

/-- The numbers that read back as one double: those between its bounds, which belong to them where
the significand is even. -/
structure Rounding where
  low : Ratio
  high : Ratio
  closed : Bool

def Rounding.ofFinite (significand : Nat) (exponent : Int) : Rounding where
  low :=
    .ofBinary (4 * significand - if significand = Nat.pow 2 52 ∧ -1074 < exponent then 1 else 2)
      (exponent - 2)
  high := .ofBinary (4 * significand + 2) (exponent - 2)
  closed := significand % 2 == 0

def Rounding.contains (interval : Rounding) (r : Ratio) : Bool :=
  if interval.closed then interval.low.le r && r.le interval.high
  else interval.low.lt r && r.lt interval.high

/-- The decimal number with `count` digits nearest to a value that lies in the interval, if one
does, as its digits; the point stands at `point`. -/
def digitsOn? (value : Ratio) (interval : Rounding) (point : Int) (count : Nat) : Option Nat :=
  let unit := point - count
  let scaled : Ratio :=
    if 0 ≤ unit then ⟨value.num, value.den * Nat.pow 10 unit.toNat⟩
    else ⟨value.num * Nat.pow 10 (-unit).toNat, value.den⟩
  let below := scaled.num / scaled.den
  let nearest := scaled.round
  let other := if nearest = below then below + 1 else below
  [nearest, other].find? fun digits => interval.contains (.ofDecimal digits unit)

/-- The fewest digits that read back as a positive double, and the place of the point before the
first of them. -/
def shortest (significand : Nat) (exponent : Int) : Nat × Int :=
  let value := Ratio.ofBinary significand exponent
  let interval := Rounding.ofFinite significand exponent
  let point := pointOf value
  let counts := (List.range 17).map (· + 1)
  match counts.findSome? fun count =>
      (digitsOn? value interval point count).map fun digits => (count, digits) with
  | some (count, digits) => (digits, point + ((digitCount digits : Int) - count))
  | none => (significand, point)

end DependencyAudit.Decimal

import DependencyAudit.Text.Digit

namespace DependencyAudit.Text

/-- A code point of a text: a character, or half a surrogate pair. -/
inductive Point where
  | char (c : Char)
  | high (bits : Fin 0x400)
  | low (bits : Fin 0x400)
  deriving DecidableEq, Repr

namespace Point

def code : Point → Nat
  | char c => c.toNat
  | high bits => 0xD800 + bits
  | low bits => 0xDC00 + bits

/-- The character that a point is, if it is one. -/
def char? : Point → Option Char
  | char c => some c
  | high _ | low _ => none

/-- Whether a point is half a surrogate pair. -/
def isHalf (p : Point) : Bool := p.char?.isNone

/-- The point of a 16-bit unit. -/
def ofUnit (n : Nat) : Point :=
  if n.isValidChar then char (Char.ofNat n)
  else if n < 0xDC00 then high (Fin.ofNat 0x400 (n - 0xD800))
  else low (Fin.ofNat 0x400 (n - 0xDC00))

/-- A point by its own character or, where there is none, by its escape. -/
def escaped : Point → List Char
  | char c => [c]
  | p => '\\' :: 'u' :: hex 4 p.code

end Point

/-- The points of a text. -/
def points (s : String) : List Point := s.toList.map .char

/-- The text of points, if all of them are characters. -/
def ofPoints? (points : List Point) : Option String := (points.mapM Point.char?).map String.ofList

/-- The text of points with the escapes of those that are no characters. -/
def ofEscaped (points : List Point) : String := String.ofList (points.flatMap Point.escaped)

/-- The character that two halves of a surrogate pair name. -/
def ofPair (high low : Fin 0x400) : Char := Char.ofNat (0x10000 + high * 0x400 + low)

/-- Points in which a high half and the low one after it have become the character that they
name. -/
def joinPairs : List Point → List Point
  | .high high :: .low low :: rest => .char (ofPair high low) :: joinPairs rest
  | p :: rest => p :: joinPairs rest
  | [] => []

@[simp] theorem joinPairs_char (c : Char) (rest : List Point) :
    joinPairs (.char c :: rest) = .char c :: joinPairs rest := by
  rw [joinPairs]
  exact fun _ _ _ same _ => Point.noConfusion same

@[simp] theorem joinPairs_low (bits : Fin 0x400) (rest : List Point) :
    joinPairs (.low bits :: rest) = .low bits :: joinPairs rest := by
  rw [joinPairs]
  exact fun _ _ _ same _ => Point.noConfusion same

/-- What starts with no low half does not do so after its pairs have been joined. -/
theorem head?_joinPairs_ne_low {points : List Point} (bits : Fin 0x400)
    (apart : points.head? ≠ some (.low bits)) : (joinPairs points).head? ≠ some (.low bits) := by
  fun_cases joinPairs points
  · simp
  · simpa using apart
  · simp

/-- No pairs are left after they have been joined. -/
@[simp] theorem joinPairs_joinPairs (points : List Point) :
    joinPairs (joinPairs points) = joinPairs points := by
  fun_induction joinPairs points with
  | case1 high low rest ih => rw [joinPairs_char, ih]
  | case2 p rest noPair ih =>
    rw [joinPairs, ih]
    intro high low others same shape
    have first := congrArg List.head? shape
    refine head?_joinPairs_ne_low low ?_ first
    intro first
    obtain ⟨others, rfl⟩ := List.head?_eq_some_iff.mp first
    exact noPair high low others same rfl
  | case3 => rfl

@[simp] theorem joinPairs_map_char (s : List Char) : joinPairs (s.map .char) = s.map .char := by
  induction s with
  | nil => rfl
  | cons c rest ih => rw [List.map_cons, joinPairs_char, ih]

/-- Halves of surrogate pairs that cannot be written as bytes: the first one of a text, and all that
stand behind it without a character between. -/
structure EncodeFault where
  position : Nat
  halves : List Point
  deriving DecidableEq, Repr

/-- The first halves of surrogate pairs in points that start at a position, but for those that are
written anyway. -/
def encodeFault? (written : Point → Bool) (position : Nat) : List Point → Option EncodeFault
  | [] => none
  | p :: rest =>
    if p.isHalf && !written p then some ⟨position, (p :: rest).takeWhile Point.isHalf⟩
    else encodeFault? written (position + 1) rest

def EncodeFault.message (fault : EncodeFault) : String :=
  match fault.halves with
  | [half] =>
    s!"'utf-8' codec can't encode character '{ofEscaped [half]}' in position {fault.position}: " ++
      "surrogates not allowed"
  | halves =>
    let last := fault.position + halves.length - 1
    s!"'utf-8' codec can't encode characters in position {fault.position}-{last}: " ++
      "surrogates not allowed"

end DependencyAudit.Text

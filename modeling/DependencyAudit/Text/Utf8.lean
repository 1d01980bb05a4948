namespace DependencyAudit.Text

/-- Why bytes are no character. -/
inductive Utf8Reason where
  | startByte
  | continuationByte
  | endOfData
  deriving DecidableEq, Repr

def Utf8Reason.message : Utf8Reason → String
  | startByte => "invalid start byte"
  | continuationByte => "invalid continuation byte"
  | endOfData => "unexpected end of data"

/-- A part of a byte sequence: a character, or bytes that are none. -/
inductive Utf8Part where
  | char (c : Char)
  | invalid (bytes : List UInt8) (reason : Utf8Reason)
  deriving DecidableEq, Repr

/-- Where reading stands between two bytes. -/
inductive Utf8State where
  /-- Between characters. -/
  | start
  /-- Inside a character: the bytes still to come, the bounds of the next one, the bits so far and
  the bytes so far, the last one first. -/
  | within (owed low high bits : Nat) (taken : List UInt8)

/-- What the first byte of a part says. -/
def firstByte (byte : UInt8) : Utf8Part ⊕ Utf8State :=
  let b := byte.toNat
  if b < 0x80 then .inl (.char (Char.ofNat b))
  else if b < 0xC2 then .inl (.invalid [byte] .startByte)
  else if b < 0xE0 then .inr (.within 1 0x80 0xBF (b % 0x20) [byte])
  else if b = 0xE0 then .inr (.within 2 0xA0 0xBF 0 [byte])
  else if b = 0xED then .inr (.within 2 0x80 0x9F (b % 0x10) [byte])
  else if b < 0xF0 then .inr (.within 2 0x80 0xBF (b % 0x10) [byte])
  else if b = 0xF0 then .inr (.within 3 0x90 0xBF 0 [byte])
  else if b < 0xF4 then .inr (.within 3 0x80 0xBF (b % 8) [byte])
  else if b = 0xF4 then .inr (.within 3 0x80 0x8F 4 [byte])
  else .inl (.invalid [byte] .startByte)

/-- The parts of a byte sequence, from a state on. -/
def utf8Parts : Utf8State → List UInt8 → List Utf8Part
  | .start, [] => []
  | .within _ _ _ _ taken, [] => [.invalid taken.reverse .endOfData]
  | .start, byte :: rest =>
    match firstByte byte with
    | .inl part => part :: utf8Parts .start rest
    | .inr state => utf8Parts state rest
  | .within owed low high bits taken, byte :: rest =>
    let b := byte.toNat
    if low ≤ b ∧ b ≤ high then
      let bits := bits * 0x40 + b % 0x40
      if owed ≤ 1 then .char (Char.ofNat bits) :: utf8Parts .start rest
      else utf8Parts (.within (owed - 1) 0x80 0xBF bits (byte :: taken)) rest
    else
      .invalid taken.reverse .continuationByte ::
        match firstByte byte with
        | .inl part => part :: utf8Parts .start rest
        | .inr state => utf8Parts state rest

/-- The text of bytes, with U+FFFD for every part that is no character. -/
def decodeLossy (bytes : List UInt8) : List Char :=
  (utf8Parts .start bytes).map fun
    | .char c => c
    | .invalid _ _ => '\uFFFD'

/-- The first part of a byte sequence that is no character. -/
structure Utf8Fault where
  position : Nat
  bytes : List UInt8
  reason : Utf8Reason
  deriving DecidableEq, Repr

/-- The text of parts that start at a position, or the first one that is no character. -/
def textOfParts (position : Nat) : List Utf8Part → Except Utf8Fault (List Char)
  | [] => .ok []
  | .char c :: rest => do
    let text ← textOfParts (position + c.utf8Size) rest
    return c :: text
  | .invalid bytes reason :: _ => .error ⟨position, bytes, reason⟩

/-- The text of bytes that are UTF-8 throughout. -/
def decodeStrict (bytes : List UInt8) : Except Utf8Fault (List Char) :=
  textOfParts 0 (utf8Parts .start bytes)

/-- A byte as two hexadecimal digits. -/
def hexByte (byte : UInt8) : String :=
  let digits := Nat.toDigits 16 byte.toNat
  String.ofList (List.replicate (2 - digits.length) '0' ++ digits)

def Utf8Fault.message (fault : Utf8Fault) : String :=
  match fault.bytes with
  | [byte] =>
    s!"'utf-8' codec can't decode byte 0x{hexByte byte} in position {fault.position}: " ++
      fault.reason.message
  | bytes =>
    let last := fault.position + bytes.length - 1
    s!"'utf-8' codec can't decode bytes in position {fault.position}-{last}: " ++
      fault.reason.message

/-- The text with every line end as a line feed: a carriage return with a line feed after it, or
alone. -/
def unifyLineEnds : List Char → List Char
  | '\r' :: '\n' :: rest => '\n' :: unifyLineEnds rest
  | '\r' :: rest => '\n' :: unifyLineEnds rest
  | c :: rest => c :: unifyLineEnds rest
  | [] => []

end DependencyAudit.Text

/-!
UTF-8: encoding, strict decoding that names the first fault, and decoding that replaces faults.

A fault covers the longest start of a character that is well formed so far; decoding goes on
after it.
-/

namespace EloquentEntity.Text.Utf8

def encode (s : List Char) : List UInt8 := s.flatMap String.utf8EncodeChar

inductive Fault where
  | badStart
  | badContinuation
  | truncated
  deriving DecidableEq, Repr

/-- A fault, the byte where it starts, and the half-open range of bytes that it covers. -/
structure DecodeError where
  fault : Fault
  byte : UInt8
  first : Nat
  stop : Nat
  deriving DecidableEq, Repr

def isContinuation (b : UInt8) : Bool := 0x80 ≤ b && b < 0xC0

/-- The low six bits of a continuation byte after the bits read so far. -/
def extend (n : Nat) (b : UInt8) : Nat := 64 * n + (b.toNat - 0x80)

/-- One character from a first byte and the bytes after it, or a fault with the number of bytes
that it covers. -/
def decodeChar (b : UInt8) (bs : List UInt8) : Except (Fault × Nat) (Char × List UInt8) :=
  if b < 0x80 then .ok (Char.ofNat b.toNat, bs)
  else if b < 0xC2 then .error (.badStart, 1)
  else if b < 0xE0 then
    match bs with
    | [] => .error (.truncated, 1)
    | c :: bs =>
      if !isContinuation c then .error (.badContinuation, 1)
      else .ok (Char.ofNat (extend (b.toNat - 0xC0) c), bs)
  else if b < 0xF0 then
    match bs with
    | [] => .error (.truncated, 1)
    | c :: bs =>
      if !isContinuation c || (if c < 0xA0 then b == 0xE0 else b == 0xED) then
        .error (.badContinuation, 1)
      else match bs with
        | [] => .error (.truncated, 2)
        | d :: bs =>
          if !isContinuation d then .error (.badContinuation, 2)
          else .ok (Char.ofNat (extend (extend (b.toNat - 0xE0) c) d), bs)
  else if b < 0xF5 then
    match bs with
    | [] => .error (.truncated, 1)
    | c :: bs =>
      if !isContinuation c || (if c < 0x90 then b == 0xF0 else b == 0xF4) then
        .error (.badContinuation, 1)
      else match bs with
        | [] => .error (.truncated, 2)
        | d :: bs =>
          if !isContinuation d then .error (.badContinuation, 2)
          else match bs with
            | [] => .error (.truncated, 3)
            | e :: bs =>
              if !isContinuation e then .error (.badContinuation, 3)
              else .ok (Char.ofNat (extend (extend (extend (b.toNat - 0xF0) c) d) e), bs)
  else .error (.badStart, 1)

/-- Decodes at most `fuel` characters, the first of them at byte `pos`. -/
def decodeFrom : Nat → Nat → List UInt8 → Except DecodeError (List Char)
  | 0, _, _ | _, _, [] => .ok []
  | fuel + 1, pos, b :: bs =>
    match decodeChar b bs with
    | .ok (c, rest) => (decodeFrom fuel (pos + (bs.length + 1 - rest.length)) rest).map (c :: ·)
    | .error (f, n) => .error ⟨f, b, pos, pos + n⟩

def decode (bs : List UInt8) : Except DecodeError (List Char) := decodeFrom bs.length 0 bs

/-- Decodes at most `fuel` characters, with U+FFFD for each fault. -/
def decodeLossyFrom : Nat → List UInt8 → List Char
  | 0, _ | _, [] => []
  | fuel + 1, b :: bs =>
    match decodeChar b bs with
    | .ok (c, rest) => c :: decodeLossyFrom fuel rest
    | .error (_, n) => '\uFFFD' :: decodeLossyFrom fuel (bs.drop (n - 1))

def decodeLossy (bs : List UInt8) : List Char := decodeLossyFrom bs.length bs

def Fault.message : Fault → String
  | badStart => "invalid start byte"
  | badContinuation => "invalid continuation byte"
  | truncated => "unexpected end of data"

def hexByte (b : UInt8) : String :=
  String.ofList [Nat.digitChar (b.toNat / 16), Nat.digitChar (b.toNat % 16)]

def DecodeError.message (e : DecodeError) : String :=
  let place :=
    if e.stop = e.first + 1 then s!"byte 0x{hexByte e.byte} in position {e.first}"
    else s!"bytes in position {e.first}-{e.stop - 1}"
  s!"'utf-8' codec can't decode {place}: {e.fault.message}"

end EloquentEntity.Text.Utf8

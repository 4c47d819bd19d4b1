import EloquentEntity.Text.Utf8

/-!
Percent coding: a byte is written as `%` and two hexadecimal digits.

Encoding goes over the bytes of every character that is not kept. Decoding goes over each stretch
of ASCII characters on its own and replaces bytes that are no text.
-/

namespace EloquentEntity.PercentCoding

open Text

/-- Letters, digits and the marks that are never encoded. -/
def isUnreserved (c : Char) : Bool := c.isAlphanum || "_.-~".toList.contains c

/-! ### Encoding -/

def hexDigit (n : Nat) : Char := (Nat.digitChar n).toUpper

def encodeByte (b : UInt8) : List Char := ['%', hexDigit (b.toNat / 16), hexDigit (b.toNat % 16)]

/-- Encodes everything but unreserved and `safe` characters. -/
def encode (safe : List Char) (s : List Char) : List Char :=
  s.flatMap fun c =>
    if isUnreserved c || safe.contains c then [c]
    else (String.utf8EncodeChar c).flatMap encodeByte

def encodePlus (s : List Char) : List Char :=
  (encode [' '] s).map fun c => if c == ' ' then '+' else c

/-! ### Decoding -/

def hexValue? (c : Char) : Option Nat :=
  if c.isDigit then some (c.toNat - '0'.toNat)
  else if 'a' ≤ c ∧ c ≤ 'f' then some (c.toNat - 'a'.toNat + 10)
  else if 'A' ≤ c ∧ c ≤ 'F' then some (c.toNat - 'A'.toNat + 10)
  else none

/-- The bytes of ASCII text. A percent sign without two digits stands for itself. -/
def bytes : List Char → List UInt8
  | [] => []
  | '%' :: a :: b :: s =>
    match hexValue? a, hexValue? b with
    | some x, some y => UInt8.ofNat (16 * x + y) :: bytes s
    | _, _ => '%'.toUInt8 :: bytes (a :: b :: s)
  | c :: s => c.toUInt8 :: bytes s

def stretches : List Char → List (Bool × List Char)
  | [] => []
  | c :: s =>
    let ascii : Bool := c.toNat < 128
    match stretches s with
    | [] => [(ascii, [c])]
    | (a, r) :: rs => if a == ascii then (a, c :: r) :: rs else (ascii, [c]) :: (a, r) :: rs

def decode (s : List Char) : List Char :=
  (stretches s).flatMap fun (ascii, r) => if ascii then Utf8.decodeLossy (bytes r) else r

def decodePlus (s : List Char) : List Char :=
  decode (s.map fun c => if c == '+' then ' ' else c)

end EloquentEntity.PercentCoding

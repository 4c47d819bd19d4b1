/-!
Numbers with a fixed count of decimal places, and whole numbers with commas.

A floating-point number is rounded from its exact value; a half goes to the even neighbour.
-/

namespace EloquentEntity.Number

/-- `num / den` rounded to the nearest whole number, a half to the even one. -/
def roundHalfEven (num den : Nat) : Nat :=
  let q := num / den
  let r := num % den
  if 2 * r < den then q
  else if den < 2 * r then q + 1
  else if q % 2 = 0 then q else q + 1

/-- The exact value of a finite number's bits: its sign, and numerator and denominator. -/
def exactValue (bits : UInt64) : Bool × Nat × Nat :=
  let n := bits.toNat
  let fraction := n % Nat.pow 2 52
  let exponent := n / Nat.pow 2 52 % Nat.pow 2 11
  let (m, e) := if exponent = 0 then (fraction, 1) else (fraction + Nat.pow 2 52, exponent)
  (n / Nat.pow 2 63 = 1, m * Nat.pow 2 (e - 1075), Nat.pow 2 (1075 - e))

/-- `n / 10ᵖ` in decimal notation. -/
def withPlaces (p n : Nat) : String :=
  let fraction := toString (n % Nat.pow 10 p)
  toString (n / Nat.pow 10 p) ++ "." ++
    String.ofList (List.replicate (p - fraction.length) '0') ++ fraction

def fixed (p : Nat) (x : Float) : String :=
  let (negative, num, den) := exactValue x.toBits
  (if negative then "-" else "") ++ withPlaces p (roundHalfEven (num * Nat.pow 10 p) den)

/-- Commas between groups of three digits, counted from the right. -/
def groupDigits : List Char → List Char
  | [] => []
  | c :: s => if s.length % 3 = 0 ∧ s ≠ [] then c :: ',' :: groupDigits s else c :: groupDigits s

def withCommas (n : Int) : String :=
  (if n < 0 then "-" else "") ++ String.ofList (groupDigits (toString n.natAbs).toList)

end EloquentEntity.Number

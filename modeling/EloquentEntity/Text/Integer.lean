import EloquentEntity.Text.Blank
import EloquentEntity.Text.Digit

/-!
Reading a whole number: white space around it, a sign, and decimal digits of any script with
single underscores between them.
-/

namespace EloquentEntity.Text

inductive IntegerError where
  | malformed
  /-- More digits than are read. -/
  | tooLong (digits : Nat)
  deriving DecidableEq, Repr

/-- The number of digits that are read at most. -/
def digitLimit : Nat := 4300

/-- White space around a number: of the ASCII characters only the six usual ones. -/
def isNumberBlank (c : Char) : Bool :=
  if c.toNat < 128 then c == ' ' || (9 ≤ c.toNat && c.toNat ≤ 13) else isBlank c

/-- The values of digits that single underscores may part. -/
def digitValues : List Char → Option (List Nat)
  | [] => none
  | c :: s =>
    match decimalValue c, s with
    | none, _ => none
    | some d, [] => some [d]
    | some d, '_' :: s => (digitValues s).map (d :: ·)
    | some d, s => (digitValues s).map (d :: ·)

def ofDigits (ds : List Nat) : Nat := ds.foldl (fun n d => 10 * n + d) 0

def splitSign : List Char → Bool × List Char
  | '-' :: s => (true, s)
  | '+' :: s => (false, s)
  | s => (false, s)

def readInteger (s : List Char) : Except IntegerError Int :=
  let (negative, s) := splitSign (s.dropWhile isNumberBlank)
  let isPart := fun c => (decimalValue c).isSome || c == '_'
  match digitValues (s.takeWhile isPart) with
  | none => .error .malformed
  | some ds =>
    if ds.length > digitLimit then .error (.tooLong ds.length)
    else if (s.dropWhile isPart).all isNumberBlank then
      .ok (if negative then -(ofDigits ds : Int) else ofDigits ds)
    else .error .malformed

end EloquentEntity.Text

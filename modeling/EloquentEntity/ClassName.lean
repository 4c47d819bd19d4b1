import EloquentEntity.OrderedMap

/-!
Class names with namespaces, written with backslashes between their segments.

A qualified name in normal form starts with exactly one backslash.
-/

namespace EloquentEntity.ClassName

/-- Without the backslashes at the front. -/
def bare (name : String) : String := String.ofList (name.toList.dropWhile (· == '\\'))

/-- The segment after the last backslash. -/
def short (name : String) : String :=
  String.ofList (name.toList.reverse.takeWhile (· != '\\')).reverse

def isClass (type : String) : Bool := type.toList.contains '\\'

/-- The normal form: one backslash at the front. -/
def qualify (name : String) : String := "\\" ++ bare name

/-- A class as written, in a file with these imports: an imported short name is expanded, any
other name is taken to be qualified. -/
def resolve (name : String) (imports : OrderedMap String String) : String :=
  match imports.get? (bare name) with
  | some full => qualify full
  | none => qualify name

/-! ### Import lines -/

def insertName (x : String) : List String → List String
  | [] => [x]
  | y :: ys => if x < y then x :: y :: ys else if x = y then y :: ys else y :: insertName x ys

/-- The bare names in order, each once; a name of backslashes only is left out. -/
def importNames (names : List String) : List String :=
  ((names.map bare).filter (· ≠ "")).foldr insertName []

def useLine (name : String) : String := "use " ++ name ++ ";"

def useLines (names : List String) : List String := (importNames names).map useLine

end EloquentEntity.ClassName

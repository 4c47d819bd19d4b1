/-!
Values as they come from outside, and what can be wrong with a field that is made from one.
-/

namespace EloquentEntity

/-- A value of any kind. The number `⟨m, e⟩` is `m · 10⁻ᵉ`. -/
inductive Raw where
  | null
  | bool (b : Bool)
  | number (mantissa : Int) (exponent : Nat)
  | text (s : String)
  | list (items : List Raw)
  | object (fields : List (String × Raw))
  deriving Repr, Inhabited

inductive Issue where
  | required
  | unknownField
  | noAttribute (name : String)
  | frozen
  | notText
  | tooShort
  | notBool
  | unclearBool
  | notPath
  | notList
  | notBaseClass
  | notField
  /-- Refused by a rule of the field. -/
  | refused (reason : String)
  deriving DecidableEq, Repr

def Issue.message : Issue → String
  | required => "Field required"
  | unknownField => "Extra inputs are not permitted"
  | noAttribute name => s!"Object has no attribute '{name}'"
  | frozen => "Instance is frozen"
  | notText => "Input should be a valid string"
  | tooShort => "String should have at least 1 character"
  | notBool => "Input should be a valid boolean"
  | unclearBool => "Input should be a valid boolean, unable to interpret input"
  | notPath => "Input is not a valid path for <class 'pathlib.Path'>"
  | notList => "Input should be a valid list"
  | notBaseClass => "Input should be 'Data' or 'Resource'"
  | notField => "Input should be a valid dictionary or instance of EntityField"
  | refused reason => s!"Value error, {reason}"

/-- A field, named by the way to it, and what is wrong with it. -/
structure FieldIssue where
  place : List String
  issue : Issue
  deriving DecidableEq, Repr

namespace Raw

def asText : Raw → Except Issue String
  | text s => .ok s
  | _ => .error .notText

def asNonEmpty (r : Raw) : Except Issue { s : String // s ≠ "" } :=
  match r.asText with
  | .error e => .error e
  | .ok s => if h : s = "" then .error .tooShort else .ok ⟨s, h⟩

def asOptionalText : Raw → Except Issue (Option String)
  | null => .ok none
  | r => r.asText.map some

def trueWords : List String := ["1", "on", "t", "true", "y", "yes"]
def falseWords : List String := ["0", "off", "f", "false", "n", "no"]

/-- The numbers 0 and 1 are truth values. Other whole numbers of 64 bits are just unclear. -/
def boolOfInt (n : Int) : Except Issue Bool :=
  if n = 0 then .ok false
  else if n = 1 then .ok true
  else if -Int.pow 2 63 ≤ n ∧ n < Int.pow 2 63 then .error .unclearBool
  else .error .notBool

/-- A truth value, one of the numbers 0 and 1, or a word for it. -/
def asBool : Raw → Except Issue Bool
  | bool b => .ok b
  | number m e =>
    if m % Int.pow 10 e = 0 then boolOfInt (m / Int.pow 10 e) else .error .notBool
  | text s =>
    let w := String.ofList (s.toList.map Char.toLower)
    if trueWords.contains w then .ok true
    else if falseWords.contains w then .ok false
    else .error .unclearBool
  | _ => .error .notBool

end Raw

def unknownFields (known : List String) (fields : List (String × Raw)) : List FieldIssue :=
  (fields.filter fun f => !known.contains f.1).map fun f => ⟨[f.1], .unknownField⟩

end EloquentEntity

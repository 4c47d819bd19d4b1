import EloquentEntity.CommandLine.Switch
import EloquentEntity.Text.Digit
import EloquentEntity.Text.Quoted

/-!
The words of a command line: which of them are switches and which are values.

A long switch may be shortened as long as no other one begins alike. A word that looks like a
negative number, or has a space in it, is a value unless it is a switch.
-/

namespace EloquentEntity.CommandLine

inductive UsageError where
  | ambiguous (word : String) (candidates : List String)
  | ignoredValue (s : Switch) (value : String)
  | missingValue (s : Switch)
  | missingModel
  | unrecognized (words : List String)
  deriving DecidableEq, Repr

def UsageError.message : UsageError → String
  | ambiguous word candidates =>
    s!"ambiguous option: {word} could match " ++ ", ".intercalate candidates
  | ignoredValue s value =>
    s!"argument {s.describe}: ignored explicit argument {String.ofList (Text.quoted value.toList)}"
  | missingValue s => s!"argument {s.describe}: expected one argument"
  | missingModel => "the following arguments are required: MODEL"
  | unrecognized words => "unrecognized arguments: " ++ " ".intercalate words

/-- A text that is attached to a switch, after an equals sign or right behind a letter. -/
structure Attached where
  bySign : Bool
  text : List Char
  deriving DecidableEq, Repr

inductive Word where
  | value (s : String)
  /-- A switch as it is spelled in full. -/
  | switch (s : Switch) (spelling : String) (attached : Option Attached)
  | unknown (s : String)
  /-- Two dashes, behind which there are only values. -/
  | separator
  deriving DecidableEq, Repr

/-- The text before the first equals sign, and what is attached by it. -/
def splitSign (w : List Char) : List Char × Option Attached :=
  let front := w.takeWhile (· != '=')
  match w.drop front.length with
  | _ :: text => (front, some ⟨true, text⟩)
  | [] => (front, none)

def exactSwitch? (w : String) : Option Word :=
  match Switch.spellings.lookup w with
  | some s => some (.switch s w none)
  | none =>
    let (front, attached) := splitSign w.toList
    let name := String.ofList front
    if attached.isSome then
      (Switch.spellings.lookup name).map fun s => .switch s name attached
    else none

/-- The spellings that a word may stand for, with what is attached to them. -/
def interpretations : List Char → List (String × Switch × Option Attached)
  | '-' :: '-' :: w =>
    let (front, attached) := splitSign ('-' :: '-' :: w)
    (Switch.spellings.filter fun s => front.isPrefixOf s.1.toList).map fun s =>
      (s.1, s.2, attached)
  | '-' :: c :: w =>
    (Switch.ofLetter? c).toList.map fun s => (String.ofList ['-', c], s, some ⟨false, w⟩)
  | _ => []

/-- Digits, or a point with digits behind it and possibly before it; a line feed may follow. -/
def isNumber (w : List Char) : Bool :=
  let w := if w.getLast? == some '\n' then w.dropLast else w
  let isDecimal := fun c => (Text.decimalValue c).isSome
  match w.dropWhile isDecimal with
  | [] => !w.isEmpty
  | '.' :: fraction => !fraction.isEmpty && fraction.all isDecimal
  | _ => false

def readWord (w : String) : Except UsageError Word :=
  match w.toList with
  | '-' :: c :: s =>
    match exactSwitch? w with
    | some word => .ok word
    | none =>
      match interpretations ('-' :: c :: s) with
      | [(spelling, t, attached)] => .ok (.switch t spelling attached)
      | [] => .ok (if isNumber (c :: s) || (c :: s).contains ' ' then .value w else .unknown w)
      | many => .error (.ambiguous w (many.map (·.1)))
  | _ => .ok (.value w)

def readWords : List String → Except UsageError (List Word)
  | [] => .ok []
  | w :: ws =>
    if w = "--" then .ok (.separator :: ws.map .value)
    else match readWord w, readWords ws with
      | .ok word, .ok words => .ok (word :: words)
      | .error e, _ | _, .error e => .error e

end EloquentEntity.CommandLine

import EloquentEntity.Text.LetterCase.Table

/-!
Letter case of any script: the case classes and the lower-case form of a text.

A capital sigma becomes the final form `ς` at the end of a word and `σ` elsewhere; every other
character is mapped on its own.
-/

namespace EloquentEntity.Text

def isLowerCase (c : Char) : Bool :=
  if c.toNat < 128 then c.isLower else lowerRuns.any (·.has c.toNat)

def isUpperCase (c : Char) : Bool :=
  if c.toNat < 128 then c.isUpper else upperRuns.any (·.has c.toNat)

def isCaseIgnorable (c : Char) : Bool := inRanges caseIgnorable c.toNat

/-- The lower-case form of a character that needs no context. -/
def lowerChar (c : Char) : List Char :=
  if c.toNat < 128 then [c.toLower]
  else if c == 'İ' then ['i', '\u0307']
  else match lowerRules.find? (·.1.has c.toNat) with
    | some (_, d) => [Char.ofNat (c.toNat + d).toNat]
    | none => [c]

/-- The first character that is not skipped has letter case. -/
def meetsLetter (s : List Char) : Bool :=
  match s.dropWhile isCaseIgnorable with
  | [] => false
  | c :: _ => isLowerCase c || isUpperCase c

/-- Lower case of `s`, which follows the reversed text `before`. -/
def lowerFrom (before : List Char) : List Char → List Char
  | [] => []
  | c :: s =>
    if c == 'Σ' then
      (if meetsLetter before && !meetsLetter s then 'ς' else 'σ') :: lowerFrom (c :: before) s
    else lowerChar c ++ lowerFrom (c :: before) s

def lower (s : List Char) : List Char := lowerFrom [] s

/-- Some letter is lower case and none is upper case. -/
def isAllLower (s : List Char) : Bool := s.any isLowerCase && !s.any isUpperCase

end EloquentEntity.Text

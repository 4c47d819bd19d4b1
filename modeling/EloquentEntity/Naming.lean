import EloquentEntity.Text.Blank
import EloquentEntity.Text.LetterCase

/-!
Table names by convention: `BlogCategory` lives in `blog_categories`.

A model name is put into snake case, and the last word of the result into the plural.
-/

namespace EloquentEntity.Naming

open EloquentEntity.Text

/-! ### Snake case -/

/-- An underscore before every ASCII capital that follows a character. -/
def parted : List Char → List Char
  | [] => []
  | [c] => [c]
  | c :: d :: s => if d.isUpper then c :: '_' :: parted (d :: s) else c :: parted (d :: s)

def snake (s : List Char) : List Char :=
  if isAllLower s then s else lower (parted (withoutBlanks s))

/-! ### Plural -/

def irregular : List (String × String) :=
  [("child", "children"), ("person", "people"), ("man", "men"), ("woman", "women"),
   ("foot", "feet"), ("tooth", "teeth"), ("mouse", "mice"), ("criterion", "criteria"),
   ("medium", "media"), ("datum", "data"), ("index", "indices"), ("axis", "axes")]

def uncountable : List String :=
  ["audio", "data", "equipment", "feedback", "information", "media", "metadata", "money", "news",
   "series", "software", "staff"]

def endsWith (tail : String) (s : List Char) : Bool := tail.toList.isSuffixOf s

/-- The lower-case word ends in `y` after a character that is no vowel. -/
def endsInConsonantY (s : List Char) : Bool :=
  match s.reverse with
  | 'y' :: c :: _ => !(['a', 'e', 'i', 'o', 'u'].contains c)
  | _ => false

def pluralWord (w : List Char) : List Char :=
  let l := lower w
  if uncountable.contains (String.ofList l) then w
  else match irregular.lookup (String.ofList l) with
    | some p => p.toList
    | none =>
      if ["s", "x", "z", "ch", "sh"].any (endsWith · l) then w ++ "es".toList
      else if endsInConsonantY l then w.dropLast ++ "ies".toList
      else if endsWith "fe" l then w.dropLast.dropLast ++ "ves".toList
      else if endsWith "f" l && !endsWith "ff" l then w.dropLast ++ "ves".toList
      else w ++ "s".toList

/-- What follows the last underscore. -/
def lastWord (s : List Char) : List Char := (s.reverse.takeWhile (· != '_')).reverse

def beforeLastWord (s : List Char) : List Char := s.take (s.length - (lastWord s).length - 1)

def plural (s : List Char) : List Char :=
  if s.isEmpty then []
  else
    let head := beforeLastWord s
    let last := pluralWord (lastWord s)
    if head.isEmpty then last else head ++ '_' :: last

/-! ### Names -/

def snakeCase (name : String) : String := String.ofList (snake name.toList)

/-- The plural of the last word of a snake-case name. -/
def pluralName (name : String) : String := String.ofList (plural name.toList)

/-- The table that a model has by convention. -/
def tableName (model : String) : String := pluralName (snakeCase model)

end EloquentEntity.Naming

/-!
Identifiers: a letter, an underscore or a character from U+0080 to U+FFFF, then such characters
and digits.
-/

namespace EloquentEntity.Text

def isLabelStart (c : Char) : Bool :=
  c.isAlpha || c == '_' || (0x80 ≤ c.toNat && c.toNat ≤ 0xFFFF)

def isLabelChar (c : Char) : Bool := isLabelStart c || c.isDigit

/-- A start character and further label characters, and nothing else. -/
def isLabel : List Char → Bool
  | [] => false
  | c :: s => isLabelStart c && s.all isLabelChar

def chomp (s : List Char) : List Char :=
  if s.getLast? = some '\n' then s.dropLast else s

/-- A label that one line feed may follow. -/
def isIdentifier (s : List Char) : Bool := isLabel (chomp s)

end EloquentEntity.Text

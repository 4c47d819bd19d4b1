/-!
Lines of a text. A line ends at any of the line and paragraph marks; a carriage return before a
line feed counts once with it.
-/

namespace EloquentEntity.Text

/-- Line feed, vertical tab, form feed, carriage return, the separators U+001C to U+001E, next
line, and the line and paragraph separators. -/
def isLineEnd (c : Char) : Bool :=
  let n := c.toNat
  (10 ≤ n && n ≤ 13) || (28 ≤ n && n ≤ 30) || n == 0x85 || n == 0x2028 || n == 0x2029

/-- The lines without their ends; an end at the very end of the text starts no further line. -/
def lines : List Char → List (List Char)
  | [] => []
  | '\r' :: '\n' :: s => [] :: lines s
  | c :: s =>
    if isLineEnd c then [] :: lines s
    else match lines s with
      | [] => [[c]]
      | l :: ls => (c :: l) :: ls

def lineCount (s : String) : Nat := (lines s.toList).length

/-- Carriage returns, alone or before a line feed, read as line feeds. -/
def universalNewlines : List Char → List Char
  | [] => []
  | '\r' :: '\n' :: s => '\n' :: universalNewlines s
  | '\r' :: s => '\n' :: universalNewlines s
  | c :: s => c :: universalNewlines s

end EloquentEntity.Text

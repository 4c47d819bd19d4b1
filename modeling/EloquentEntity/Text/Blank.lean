/-!
White space of any script, and trimming.
-/

namespace EloquentEntity.Text

/-- White space, the information separators U+001C to U+001F included. -/
def isBlank (c : Char) : Bool :=
  let n := c.toNat
  (9 ≤ n && n ≤ 13) || (28 ≤ n && n ≤ 32) || n == 0x85 || n == 0xA0 || n == 0x1680 ||
    (0x2000 ≤ n && n ≤ 0x200A) || n == 0x2028 || n == 0x2029 || n == 0x202F || n == 0x205F ||
    n == 0x3000

/-- White space that does not end a line. -/
def isInlineBlank (c : Char) : Bool := isBlank c && c != '\n' && c != '\r'

def trimLeft (s : List Char) : List Char := s.dropWhile isBlank

def dropTail (p : Char → Bool) (s : List Char) : List Char :=
  (s.reverse.dropWhile p).reverse

def trimRight (s : List Char) : List Char := dropTail isBlank s

def trim (s : List Char) : List Char := trimRight (trimLeft s)

def withoutBlanks (s : List Char) : List Char := s.filter (!isBlank ·)

end EloquentEntity.Text

/-!
Tokens of PHP source text.

A token carries the gap before it: white space, comments, and the text outside the code. What a
parser may look at is the lexeme alone.
-/

namespace EloquentEntity.Syntax

inductive TokenKind where
  /-- An identifier or a keyword. -/
  | word
  /-- `$name`. -/
  | variableName
  | number
  /-- A string in single quotes. -/
  | singleQuoted
  /-- A string in double quotes in which no expression stands. -/
  | doubleQuoted
  /-- A heredoc in which no expression stands. -/
  | heredoc
  | nowdoc
  /-- The start of a string in which expressions stand. -/
  | templateOpen
  /-- Characters between the expressions of a string. -/
  | templateText
  | templateClose
  /-- Punctuation and operators. -/
  | symbol
  /-- The end of the source. -/
  | stop
  /-- A character that starts no token. -/
  | unknown
  deriving DecidableEq, Repr, Inhabited

/-- A kind and the characters. `afterTag` says that a closing tag `?>` stands before. -/
structure Lexeme where
  kind : TokenKind
  text : List Char
  afterTag : Bool
  deriving DecidableEq, Repr, Inhabited

structure Token where
  gap : List Char
  lexeme : Lexeme
  deriving DecidableEq, Repr, Inhabited

namespace Token

def kind (t : Token) : TokenKind := t.lexeme.kind
def text (t : Token) : List Char := t.lexeme.text

def written (t : Token) : List Char := t.gap ++ t.text

end Token

/-- ASCII lower case, in which keywords are compared. -/
def asciiLower (s : List Char) : List Char := s.map Char.toLower

/-- A condition on one lexeme. -/
inductive Pattern where
  | kind (k : TokenKind)
  /-- A symbol spelled so. -/
  | symbol (s : String)
  /-- A word spelled so in any case. -/
  | keyword (w : String)
  /-- A word spelled exactly so. -/
  | exactly (w : String)
  /-- A word that is one of these keywords. -/
  | oneOf (ws : List String)
  /-- A word that is none of these keywords. -/
  | noneOf (ws : List String)
  /-- Any lexeme after a closing tag. -/
  | afterTag
  deriving DecidableEq, Repr

def Pattern.accepts (p : Pattern) (l : Lexeme) : Bool :=
  match p with
  | .kind k => l.kind == k
  | .symbol s => l.kind == .symbol && l.text == s.toList
  | .keyword w => l.kind == .word && asciiLower l.text == w.toList
  | .exactly w => l.kind == .word && l.text == w.toList
  | .oneOf ws => l.kind == .word && ws.any (·.toList == asciiLower l.text)
  | .noneOf ws => l.kind == .word && !ws.any (·.toList == asciiLower l.text)
  | .afterTag => l.afterTag

end EloquentEntity.Syntax

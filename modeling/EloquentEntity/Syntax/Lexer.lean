import EloquentEntity.Syntax.Token
import EloquentEntity.Text.WordChar

/-!
Splitting source text into tokens.

The text outside the code, white space and comments make up the gaps. Inside the code a stack of
modes says where the lexer stands: between braces, in a string whose expressions are tokens of
their own, or in the short index or member access that a string allows after a variable.
-/

namespace EloquentEntity.Syntax

/-! ### Characters -/

def isSpace (c : Char) : Bool :=
  c == ' ' || (9 ≤ c.toNat && c.toNat ≤ 13) || c == '\u00A0' || c == '\u200B' || c == '\u2060' ||
    c == '\uFEFF'

/-- Letters, the underscore, and the characters from U+0080 to U+FFFF that are no white space. -/
def isWordStart (c : Char) : Bool :=
  c.isAlpha || c == '_' || (0x80 ≤ c.toNat && c.toNat ≤ 0xFFFF && !isSpace c)

def isWordPart (c : Char) : Bool := isWordStart c || c.isDigit

def startsWord : List Char → Bool
  | [] => false
  | c :: _ => isWordStart c

def isHorizontal (c : Char) : Bool := c == ' ' || c == '\t'

/-! ### Gaps -/

/-- The length of a comment to the end of its line, after the characters that start it. A closing
tag ends it too. -/
def lineLength : List Char → Nat
  | [] => 0
  | '\n' :: _ | '\r' :: _ => 0
  | '?' :: '>' :: _ => 0
  | ['?'] => 0
  | '?' :: '\n' :: _ | '?' :: '\r' :: _ => 1
  | '?' :: _ :: s => lineLength s + 2
  | _ :: s => lineLength s + 1

/-- The length of a comment to its `*/`, after its `/*`. -/
def blockLength : List Char → Option Nat
  | [] => none
  | '*' :: '/' :: _ => some 2
  | _ :: s => (blockLength s).map (· + 1)

/-- The length of an opening tag after its `<?`. -/
def tagLength : List Char → Nat
  | '=' :: _ => 1
  | a :: b :: c :: _ => if asciiLower [a, b, c] == ['p', 'h', 'p'] then 3 else 0
  | _ => 0

/-- The length of the text outside the code, with the opening tag that ends it. -/
def outsideLength : List Char → Nat
  | [] => 0
  | '<' :: '?' :: s => tagLength s + 2
  | _ :: s => outsideLength s + 1

/-- The length of the white space, comment or text outside the code that stands in front. -/
def pieceLength : List Char → Nat
  | '/' :: '/' :: s => lineLength s + 2
  | '/' :: '*' :: s => ((blockLength s).map (· + 2)).getD 0
  | '#' :: '[' :: _ => 0
  | '#' :: '?' :: _ => 1
  | '#' :: s => lineLength s + 1
  | '?' :: '>' :: s => outsideLength s + 2
  | c :: _ => if isSpace c then 1 else 0
  | [] => 0

/-- A gap and the text after it. `afterTag` says that a closing tag stands in the gap. -/
structure Gap where
  chars : List Char
  afterTag : Bool
  rest : List Char

/-- The length of a gap, and whether a closing tag stands in it. The first characters, as many as
the number says, belong to a piece that has begun before. -/
def gapLength : Nat → List Char → Nat × Bool
  | _, [] => (0, false)
  | k + 1, _ :: s =>
    let (n, afterTag) := gapLength k s
    (n + 1, afterTag)
  | 0, c :: s =>
    match pieceLength (c :: s) with
    | 0 => (0, false)
    | k + 1 =>
      let (n, afterTag) := gapLength k s
      (n + 1, c == '?' || afterTag)

def gap (s : List Char) : Gap :=
  let (n, afterTag) := gapLength 0 s
  ⟨s.take n, afterTag, s.drop n⟩

/-! ### Numbers -/

/-- The length of digits in `p` that single underscores may part. -/
def digitsLength (p : Char → Bool) : List Char → Nat
  | [] => 0
  | [c] => if p c then 1 else 0
  | c :: '_' :: s =>
    if !p c then 0
    else match s with
      | d :: _ => if p d then digitsLength p s + 2 else 1
      | [] => 1
  | c :: s => if p c then digitsLength p s + 1 else 0

def isHexDigit (c : Char) : Bool :=
  c.isDigit || ('a' ≤ c && c ≤ 'f') || ('A' ≤ c && c ≤ 'F')

def isOctalDigit (c : Char) : Bool := '0' ≤ c && c ≤ '7'

def isBinaryDigit (c : Char) : Bool := c == '0' || c == '1'

def exponentLength : List Char → Nat
  | e :: s =>
    if e == 'e' || e == 'E' then
      let (sign, ds) := match s with
        | '+' :: ds | '-' :: ds => (1, ds)
        | ds => (0, ds)
      match digitsLength Char.isDigit ds with
      | 0 => 0
      | n => n + sign + 1
    else 0
  | [] => 0

/-- The length of a number in decimal notation, with a point or an exponent or both. -/
def decimalLength (s : List Char) : Nat :=
  let whole := digitsLength Char.isDigit s
  let (point, fraction) := match s.drop whole with
    | '.' :: s => (1, digitsLength Char.isDigit s)
    | _ => (0, 0)
  if whole + fraction = 0 then 0
  else
    let mantissa := whole + point + fraction
    mantissa + exponentLength (s.drop mantissa)

/-- The length of a whole number: one that starts with zero is octal. -/
def wholeLength : List Char → Nat
  | '0' :: 'x' :: s | '0' :: 'X' :: s =>
    match digitsLength isHexDigit s with
    | 0 => 1
    | n => n + 2
  | '0' :: 'b' :: s | '0' :: 'B' :: s =>
    match digitsLength isBinaryDigit s with
    | 0 => 1
    | n => n + 2
  | '0' :: 'o' :: s | '0' :: 'O' :: s => digitsLength isOctalDigit s + 2
  | '0' :: s => digitsLength isOctalDigit ('0' :: s)
  | s => digitsLength Char.isDigit s

/-- The length of a number: the longer of the two readings. A number with neither point nor
exponent is a whole number. -/
def numberLength (s : List Char) : Nat :=
  let d := decimalLength s
  if digitsLength Char.isDigit s < d then max d (wholeLength s) else wholeLength s

/-! ### Strings -/

/-- What ends a string in which expressions may stand. -/
inductive Quote where
  | mark (c : Char)
  | heredoc (label : List Char)
  deriving DecidableEq, Repr

/-- The length of a string in single quotes after its opening quote. -/
def singleLength : List Char → Option Nat
  | [] => none
  | '\'' :: _ => some 1
  | '\\' :: _ :: s => (singleLength s).map (· + 2)
  | _ :: s => (singleLength s).map (· + 1)

/-- The length of a heredoc's closing line: horizontal white space and the label. -/
def closingLength (label s : List Char) : Option Nat :=
  let indent := (s.takeWhile isHorizontal).length
  let rest := s.drop indent
  if label.isPrefixOf rest && !(rest.drop label.length).head?.any isWordPart then
    some (indent + label.length)
  else none

/-- The length of what closes the string, if it stands in front. -/
def Quote.closing : Quote → List Char → Option Nat
  | .mark q, c :: _ => if c == q then some 1 else none
  | .heredoc l, '\r' :: '\n' :: s => (closingLength l s).map (· + 2)
  | .heredoc l, '\n' :: s => (closingLength l s).map (· + 1)
  | _, _ => none

/-- A character that starts a variable's name in a string: a letter or the underscore. -/
def startsVariable (c : Char) : Bool :=
  isWordStart c && (c.toNat < 128 || Text.isAlphanumeric c)

/-- An expression starts here: a variable, or a brace next to a dollar sign. -/
def opensExpression : List Char → Bool
  | '$' :: c :: _ => startsVariable c || c == '\x7b'
  | '\x7b' :: '$' :: _ => true
  | _ => false

/-- A backslash takes the next character with it, save a line end in a heredoc. -/
def Quote.escapes : Quote → Char → Bool
  | .mark _, _ => true
  | .heredoc _, c => c != '\n' && c != '\r'

/-- The number of plain characters before the string closes, an expression starts or the source
ends. -/
def Quote.plainLength (q : Quote) : List Char → Nat
  | [] => 0
  | '\\' :: c :: s =>
    if q.escapes c then q.plainLength s + 2 else q.plainLength (c :: s) + 1
  | c :: s =>
    if (q.closing (c :: s)).isSome || opensExpression (c :: s) then 0 else q.plainLength s + 1

/-- The start of a heredoc or nowdoc up to the end of its first line: its length, label, and
whether it is a nowdoc. -/
def heredocStart : List Char → Option (Nat × List Char × Bool)
  | '<' :: '<' :: '<' :: s =>
    let blanks := (s.takeWhile isHorizontal).length
    let (quotes, s) := match s.drop blanks with
      | '\'' :: s => (['\''], s)
      | '"' :: s => (['"'], s)
      | s => ([], s)
    let label := s.takeWhile isWordPart
    let rest := s.drop label.length
    let after := rest.drop quotes.length
    if startsWord label && rest.take quotes.length == quotes &&
        (after.head? == some '\n' || after.take 2 == ['\r', '\n']) then
      some (3 + blanks + 2 * quotes.length + label.length, label, quotes == ['\''])
    else none
  | _ => none

/-- The number of characters of a nowdoc's body and end. -/
def nowdocLength (label : List Char) : List Char → Option Nat
  | [] => none
  | c :: s =>
    match Quote.closing (.heredoc label) (c :: s) with
    | some n => some n
    | none => (nowdocLength label s).map (· + 1)

/-! ### Modes -/

/-- What the lexer stands in. -/
inductive Mode where
  /-- Between braces. -/
  | block
  /-- In a string in which expressions stand. -/
  | template (q : Quote)
  /-- Right after a variable in a string. -/
  | afterVariable
  /-- Between the brackets after a variable in a string. -/
  | index
  /-- After the arrow that follows a variable in a string. -/
  | member
  deriving DecidableEq, Repr

/-- A token's kind and length, and the modes after it. -/
structure Scan where
  kind : TokenKind
  length : Nat
  modes : List Mode

/-- Operators and punctuation of several characters, longer ones first. -/
def symbols : List (List Char) :=
  ["<<<", "<=>", "===", "!==", "...", "**=", "<<=", ">>=", "??=", "?->",
   "=>", "->", "::", "==", "!=", "<>", "<=", ">=", "&&", "||", "??", "++", "--", "+=", "-=", "*=",
   "/=", ".=", "%=", "&=", "|=", "^=", "<<", ">>", "**", "#["].map String.toList

def singleSymbols : List Char := "+-*/%=<>!.()[],;?:&|^~@$\\".toList

/-- A symbol in front. Braces are counted. A comment that does not end is none. -/
def scanSymbol (modes : List Mode) (s : List Char) : Scan :=
  match symbols.find? (·.isPrefixOf s) with
  | some op => ⟨.symbol, op.length, modes⟩
  | none =>
    match s with
    | '/' :: '*' :: _ => ⟨.unknown, 1, modes⟩
    | '\x7b' :: _ => ⟨.symbol, 1, .block :: modes⟩
    | '\x7d' :: _ => ⟨.symbol, 1, if modes.head? = some .block then modes.tail else modes⟩
    | ']' :: _ => ⟨.symbol, 1, if modes.head? = some .index then modes.tail else modes⟩
    | c :: _ => ⟨if singleSymbols.contains c then .symbol else .unknown, 1, modes⟩
    | [] => ⟨.stop, 0, modes⟩

/-- A string in which expressions may stand, after `start` characters that open it: one token when
none does, else the opening alone. -/
def scanTemplate (modes : List Mode) (q : Quote) (plain : TokenKind) (start : Nat)
    (s : List Char) : Scan :=
  let n := q.plainLength (s.drop start)
  let rest := s.drop (start + n)
  match q.closing rest with
  | some m => ⟨plain, start + n + m, modes⟩
  | none =>
    if rest.isEmpty then ⟨.unknown, 1, modes⟩ else ⟨.templateOpen, start, .template q :: modes⟩

/-- A heredoc or nowdoc after `mark` characters, if one stands there. -/
def scanHeredoc (modes : List Mode) (mark : Nat) (s : List Char) : Option Scan :=
  match heredocStart (s.drop mark) with
  | none => none
  | some (n, label, true) =>
    match nowdocLength label (s.drop (mark + n)) with
    | some m => some ⟨.nowdoc, mark + n + m, modes⟩
    | none => some ⟨.unknown, 1, modes⟩
  | some (n, label, false) => some (scanTemplate modes (.heredoc label) .heredoc (mark + n) s)

/-- A string or shell command after `mark` characters, if one stands there. -/
def scanString (modes : List Mode) (mark : Nat) (s : List Char) : Option Scan :=
  match s.drop mark with
  | '\'' :: r =>
    match singleLength r with
    | some n => some ⟨.singleQuoted, mark + 1 + n, modes⟩
    | none => some ⟨.unknown, 1, modes⟩
  | '"' :: _ => some (scanTemplate modes (.mark '"') .doubleQuoted (mark + 1) s)
  | '<' :: _ => scanHeredoc modes mark s
  | _ => none

/-- A word, or a string with the letter `b` before it. -/
def scanWord (modes : List Mode) (s : List Char) : Scan :=
  let word : Scan := ⟨.word, (s.takeWhile isWordPart).length, modes⟩
  match s with
  | c :: _ => if c == 'b' || c == 'B' then (scanString modes 1 s).getD word else word
  | [] => word

/-- The opening of a shell command between backquotes. -/
def scanCommand (modes : List Mode) (s : List Char) : Scan :=
  let q : Quote := .mark '\x60'
  if s.length = 1 + q.plainLength s.tail then ⟨.unknown, 1, modes⟩
  else ⟨.templateOpen, 1, .template q :: modes⟩

def scanCode (modes : List Mode) (s : List Char) : Scan :=
  match s with
  | [] => ⟨.stop, 0, modes⟩
  | c :: r =>
    if isWordStart c then scanWord modes s
    else if c == '$' && startsWord r then
      ⟨.variableName, (r.takeWhile isWordPart).length + 1, modes⟩
    else if c.isDigit || (c == '.' && r.head?.any Char.isDigit) then
      ⟨.number, numberLength s, modes⟩
    else if c == '\x60' then scanCommand modes s
    else (scanString modes 0 s).getD (scanSymbol modes s)

def scanInside (modes : List Mode) (q : Quote) (s : List Char) : Scan :=
  match q.closing s with
  | some n => ⟨.templateClose, n, modes.tail⟩
  | none =>
    match s with
    | [] => ⟨.unknown, 0, modes⟩
    | '$' :: '\x7b' :: _ => ⟨.symbol, 2, .block :: modes⟩
    | '\x7b' :: '$' :: _ => ⟨.symbol, 1, .block :: modes⟩
    | '$' :: r =>
      if r.head?.any startsVariable then
        ⟨.variableName, (r.takeWhile isWordPart).length + 1, .afterVariable :: modes⟩
      else ⟨.templateText, max 1 (q.plainLength s), modes⟩
    | _ => ⟨.templateText, max 1 (q.plainLength s), modes⟩

/-- The next token and whether a gap may stand before it. -/
def scan : List Mode → List Char → Scan
  | .afterVariable :: modes, '[' :: _ => ⟨.symbol, 1, .index :: modes⟩
  | .afterVariable :: modes, '-' :: '>' :: c :: s =>
    if isWordStart c then ⟨.symbol, 2, .member :: modes⟩ else scan modes ('-' :: '>' :: c :: s)
  | .afterVariable :: modes, '?' :: '-' :: '>' :: c :: s =>
    if isWordStart c then ⟨.symbol, 3, .member :: modes⟩
    else scan modes ('?' :: '-' :: '>' :: c :: s)
  | .afterVariable :: modes, s => scan modes s
  | .member :: modes, s => ⟨.word, (s.takeWhile isWordPart).length, modes⟩
  | .template q :: modes, s => scanInside (.template q :: modes) q s
  | modes, s => scanCode modes s

/-- No gap stands before the next token. -/
def isTight : List Mode → Bool
  | .template _ :: _ | .afterVariable :: _ | .member :: _ => true
  | _ => false

/-! ### Tokens -/

/-- At most `fuel` tokens of a text, the last of them the end of the source. -/
def tokensFrom : Nat → List Mode → Gap → List Token
  | 0, _, g => [⟨g.chars, .unknown, [], g.afterTag⟩]
  | fuel + 1, modes, g =>
    let here := scan modes g.rest
    let token : Token := ⟨g.chars, here.kind, g.rest.take here.length, g.afterTag⟩
    match here.length with
    | 0 => [token]
    | n + 1 =>
      let rest := g.rest.drop (n + 1)
      token :: tokensFrom fuel here.modes (if isTight here.modes then ⟨[], false, rest⟩ else gap rest)

/-- The tokens of a source, which starts outside the code. -/
def tokens (source : String) : List Token :=
  let s := source.toList
  let n := outsideLength s
  let g := gap (s.drop n)
  tokensFrom (s.length + 1) [] { g with chars := s.take n ++ g.chars }

end EloquentEntity.Syntax

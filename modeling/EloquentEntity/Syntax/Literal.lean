import EloquentEntity.Syntax.Tree
import EloquentEntity.Text.Blank

/-!
The values of string literals, in the four notations: single and double quotes, heredoc, nowdoc.

Only literals without expressions in them have a value. Each may have the letter `b` in front.
-/

namespace EloquentEntity.Syntax.Literal

/-! ### Escapes -/

/-- Replaces a backslash and a character that `meaning` knows; any other backslash stays. -/
def unescape (meaning : Char → Option Char) : List Char → List Char
  | [] => []
  | '\\' :: c :: s =>
    match meaning c with
    | some d => d :: unescape meaning s
    | none => '\\' :: unescape meaning (c :: s)
  | c :: s => c :: unescape meaning s

def singleEscape (c : Char) : Option Char :=
  if c == '\\' || c == '\'' then some c else none

def heredocEscape : Char → Option Char
  | '\\' => some '\\'
  | '$' => some '$'
  | 'n' => some '\n'
  | 'r' => some '\r'
  | 't' => some '\t'
  | 'v' => some '\x0B'
  | 'e' => some '\x1B'
  | 'f' => some '\x0C'
  | '0' => some '\x00'
  | _ => none

def doubleEscape (c : Char) : Option Char :=
  if c == '\"' then some c else heredocEscape c

/-! ### Lines of a heredoc -/

/-- The lines of a text, which line feeds part. A carriage return before one goes with it. -/
def splitLines : List Char → List (List Char)
  | [] => [[]]
  | '\r' :: '\n' :: s => [] :: splitLines s
  | '\n' :: s => [] :: splitLines s
  | c :: s =>
    match splitLines s with
    | [] => [[c]]
    | l :: ls => (c :: l) :: ls

def joinLines : List (List Char) → List Char
  | [] => []
  | [l] => l
  | l :: ls => l ++ '\n' :: joinLines ls

/-- The lines between the first and the last, each without as many characters as white space
stands in front of the last. -/
def body (raw : List Char) : List Char :=
  let ls := splitLines raw
  let indent := ((ls.getLast?.getD []).takeWhile fun c => c == ' ' || c == '\t').length
  joinLines ((ls.drop 1).dropLast.map (·.drop indent))

/-! ### Values -/

def withoutMark : List Char → List Char
  | c :: s => if c == 'b' || c == 'B' then s else c :: s
  | [] => []

def inner (s : List Char) : List Char := (s.drop 1).dropLast

/-- The text that a literal stands for. -/
def value? (t : Tree) : Option String :=
  let raw := withoutMark t.text
  let chars := match t.kind? with
    | some .singleQuoted => some (unescape singleEscape (inner raw))
    | some .doubleQuoted => some (unescape doubleEscape (inner raw))
    | some .heredoc => some (unescape heredocEscape (body raw))
    | some .nowdoc => some (body raw)
    | _ => none
  chars.map String.ofList

end EloquentEntity.Syntax.Literal

import EloquentEntity.Syntax.Source

/-!
Sources in which one token is missing.

The place of a missing token is the last gap where a semicolon or closing bracket, once inserted,
leaves no syntax error. It is named by the end of the token before it.
-/

namespace EloquentEntity.Syntax

/-- A symbol, and a line and column counted from one. Columns count bytes. -/
structure MissingToken where
  symbol : String
  line : Nat
  column : Nat
  deriving DecidableEq, Repr

namespace MissingToken

def candidates : List String := [";", "]", ")", "\x7d", ":", ","]

def symbolToken (s : String) : Token := ⟨[], .symbol, s.toList, false⟩

def positionAfter (text : List Char) : Nat × Nat :=
  let lastLine := text.reverse.takeWhile (· != '\n')
  (text.count '\n' + 1, lastLine.foldl (fun n c => n + c.utf8Size) 0 + 1)

/-- The symbol that is missing after the first `n` tokens. -/
def after (ts : List Token) (n : Nat) : Option MissingToken :=
  let accepted := fun s => (parseTokens (ts.take n ++ symbolToken s :: ts.drop n)).isSome
  (candidates.find? accepted).map fun s =>
    let (line, column) := positionAfter ((ts.take n).flatMap Token.written)
    ⟨s, line, column⟩

/-- The missing token of a source with a syntax error, if one token is enough. -/
def find? (source : String) : Option MissingToken :=
  let ts := tokens source
  (List.range ts.length).reverse.findSome? (after ts)

def message (m : MissingToken) : String :=
  s!"Syntax error, missing '{m.symbol}' on line {m.line}, column {m.column}"

end MissingToken

end EloquentEntity.Syntax

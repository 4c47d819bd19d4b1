import EloquentEntity.Syntax.Lexer
import EloquentEntity.Syntax.Rules.Statement

/-!
Reading source text: its syntax tree, or the token that is missing in it.
-/

namespace EloquentEntity.Syntax

/-- Rules that are entered at most between two tokens. -/
def stepsPerToken : Nat := 2000

def parseTokens (ts : List Token) : Option Tree :=
  match Rules.program.run Rules.grammar (stepsPerToken * (ts.length + 1)) ts with
  | .read [t] [] => some t
  | _ => none

/-- The syntax tree of a source, or `none` for a syntax error. -/
def parse (source : String) : Option Tree := parseTokens (tokens source)

end EloquentEntity.Syntax

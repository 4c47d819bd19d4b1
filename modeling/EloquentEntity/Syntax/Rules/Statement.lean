import EloquentEntity.Syntax.Rules.Declaration

/-!
Rules for statements, and the grammar as a whole.
-/

namespace EloquentEntity.Syntax.Rules

open Rule

/-- Words that start or part statements and are no names there. -/
def statementWords : List String :=
  ["if", "elseif", "else", "endif", "switch", "endswitch", "case", "default", "while", "endwhile",
   "do", "for", "endfor", "foreach", "endforeach", "goto", "continue", "break", "return", "try",
   "catch", "finally", "declare", "enddeclare", "echo", "const", "class", "interface", "trait",
   "enum", "use", "global", "abstract", "final", "readonly"]

def statements : PhpRule := .many statement

/-- A body in one statement, or between a colon and a closing word. -/
def bodyUpTo (close : String) : PhpRule :=
  .alt (all [sym ":", statements, kw close, terminator]) statement

def ifStatement : PhpRule :=
  let condition := parens expression
  let inColons := all [sym ":", statements,
    .many (all [kw "elseif", condition, sym ":", statements]),
    opt (all [kw "else", sym ":", statements]), kw "endif", terminator]
  let plain := all [statement, .many (all [kw "elseif", condition, statement]),
    opt (.seq (kw "else") statement)]
  all [kw "if", condition, .alt inColons plain]

def switchStatement : PhpRule :=
  let label := .alt (.seq (kw "case") expression) (kw "default")
  let cases := .seq (opt (sym ";")) (.many (all [label, oneSym [":", ";"], statements]))
  all [kw "switch", parens expression,
    .alt (braces cases) (all [sym ":", cases, kw "endswitch", terminator])]

def forStatement : PhpRule :=
  let part := opt (commaList expression)
  all [kw "for", parens (all [part, sym ";", part, sym ";", part]), bodyUpTo "endfor"]

def foreachStatement : PhpRule :=
  let target := oneOf [byReference, expression, .ref .listPattern]
  all [kw "foreach", parens (all [expression, kw "as", target, opt (.seq (sym "=>") target)]),
    bodyUpTo "endforeach"]

def tryStatement : PhpRule :=
  let types := .seq className (.many (.seq (sym "|") className))
  let handler := .alt
    (all [kw "catch", parens (.seq types (opt plainVariable)), block])
    (.seq (kw "finally") block)
  all [kw "try", block, many1 handler]

def declareStatement : PhpRule :=
  all [kw "declare", parens (commaList constantElement), bodyUpTo "enddeclare"]

def namespaceDeclaration : PhpRule :=
  .node .namespaceDeclaration (.seq (kw "namespace")
    (.alt (.seq namespaceName terminator) (.seq (opt namespaceName) block)))

def staticVariables : PhpRule :=
  all [kw "static", commaList (.seq plainVariable (opt (.seq (sym "=") expression))), terminator]

def returnStatement : PhpRule :=
  .node .returnStatement (all [kw "return", opt expression, terminator])

def keywordStatement : PhpRule :=
  oneOf [ifStatement, switchStatement,
    all [kw "while", parens expression, bodyUpTo "endwhile"],
    all [kw "do", statement, kw "while", parens expression, terminator],
    forStatement, foreachStatement, tryStatement, declareStatement,
    all [kw "echo", commaList expression, terminator],
    all [oneKw ["break", "continue"], opt expression, terminator],
    all [kw "goto", word, terminator],
    all [kw "global", commaList variableName, terminator],
    staticVariables]

def statementRules : List PhpRule :=
  [returnStatement, useDeclaration, namespaceDeclaration, classDeclaration,
    interfaceDeclaration, traitDeclaration, enumDeclaration, functionDeclaration,
    constantDeclaration, block,
    .node .statement keywordStatement,
    .node .statement (sym ";"),
    .node .statement (.seq (.token (.noneOf statementWords)) (sym ":")),
    .node .statement (all [.notAhead (.oneOf statementWords), expression, terminator])]

def statementRule : PhpRule := oneOf statementRules

def program : PhpRule := .node .program (.seq statements (kind .stop))

def grammar : RuleName → PhpRule
  | .expression => expressionRule
  | .listPattern => listPatternRule
  | .statement => statementRule
  | .type => typeRule
  | .attributes => attributesRule
  | .member => memberRule
  | .enumMember => enumMemberRule

end EloquentEntity.Syntax.Rules

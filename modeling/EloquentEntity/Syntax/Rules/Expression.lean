import EloquentEntity.Syntax.Rules.Name

/-!
Rules for expressions.

An expression is a flat row of operands and operators: precedence changes neither what is accepted
nor what a single operand is. An assignment belongs to the operand on its left.
-/

namespace EloquentEntity.Syntax.Rules

open Rule

/-- Words that start an expression of their own and are no names there. -/
def expressionWords : List String :=
  ["new", "clone", "print", "include", "include_once", "require", "require_once", "throw", "yield",
   "match", "fn", "function", "array", "list", "namespace"]

/-! ### Variables, literals, lists -/

/-- A variable, or dollar signs before a name, a variable or an expression in braces. -/
def variableName : PhpRule :=
  .node .variableName (.alt (kind .variableName)
    (.seq (many1 (sym "$")) (oneOf [kind .variableName, word, braces expression])))

/-- A variable by its name, where one is declared. -/
def plainVariable : PhpRule :=
  .node .variableName (.alt (kind .variableName) (.seq (sym "$") word))

/-- Items parted by commas, with a comma after the last allowed. -/
def trailingList (a : PhpRule) : PhpRule := .seq (opt (commaList a)) (opt (sym ","))

def byReference : PhpRule := .node .byReference (.seq (sym "&") expression)

def arrayElement : PhpRule :=
  .node .arrayElement (oneOf [.node .spread (.seq (sym "...") expression), byReference,
    .seq expression (opt (.seq (sym "=>") (.alt byReference expression)))])

def array : PhpRule :=
  .node .array (.alt (between "[" (trailingList arrayElement) "]")
    (.seq (kw "array") (parens (trailingList arrayElement))))

def listTarget : PhpRule :=
  .alt (.ref .listPattern)
    (all [.notAhead (.symbol "["), .notAhead (.keyword "list"), arrayElement])

/-- A list of targets, some of which may be left out. -/
def listPatternRule : PhpRule :=
  let keyed := all [.notAhead (.symbol "["), .notAhead (.keyword "list"), expression, sym "=>",
    .ref .listPattern]
  let item := .alt keyed listTarget
  let items := .seq (opt item) (.many (.seq (sym ",") (opt item)))
  .node .listPattern (.alt (between "[" items "]") (.seq (kw "list") (parens items)))

def template : PhpRule :=
  let index := between "[" (oneOf [word, .seq (opt (sym "-")) (kind .number), variableName]) "]"
  let member := .seq (oneSym ["->", "?->"]) word
  .node .template (all [kind .templateOpen,
    .many (oneOf [kind .templateText,
      .seq (.node .variableName (kind .variableName)) (opt (.alt index member)),
      braces expression, between "$\x7b" expression "\x7d"]),
    kind .templateClose])

def literal : PhpRule :=
  oneOf [.node .number (kind .number), .node .singleQuoted (kind .singleQuoted),
    .node .doubleQuoted (kind .doubleQuoted), .node .heredoc (kind .heredoc),
    .node .nowdoc (kind .nowdoc), template]

/-! ### Functions and objects -/

def arguments : PhpRule :=
  let value := oneOf [.node .spread (.seq (sym "...") (opt expression)), byReference, expression]
  .node .arguments (parens (trailingList (.alt (all [word, sym ":", value]) value)))

def modifier : PhpRule :=
  oneOf [.node .modifier (.seq (oneKw ["public", "protected", "private"])
      (opt (parens (kw "set")))),
    .node .staticModifier (kw "static"),
    .node .modifier (oneKw ["final", "abstract", "readonly", "var"])]

def block : PhpRule := .node .block (braces (.many statement))

def propertyHooks (parameters : PhpRule) : PhpRule :=
  .node .propertyHooks (braces (.many (all [opt attributes, .many modifier, opt (sym "&"), word,
    opt parameters, oneOf [all [sym "=>", expression, sym ";"], block, sym ";"]])))

/-- The parameters of a function; `hooks` is what may follow each. -/
def parametersWith (hooks : PhpRule) : PhpRule :=
  .node .parameters (parens (trailingList (.node .parameter (all [opt attributes, .many modifier,
    opt type, opt (sym "&"), opt (sym "..."), plainVariable, opt (.seq (sym "=") expression), hooks]))))

def parameters : PhpRule := parametersWith (opt (propertyHooks (parametersWith .empty)))

def closure : PhpRule :=
  let captured := .seq (opt (sym "&")) plainVariable
  .node .closure (all [opt attributes, opt (kw "static"), kw "function", opt (sym "&"), parameters,
    opt (.seq (kw "use") (parens (trailingList captured))), opt returnType, block])

def arrowFunction : PhpRule :=
  .node .arrowFunction (all [opt attributes, opt (kw "static"), kw "fn", opt (sym "&"), parameters,
    opt returnType, sym "=>", expression])

def baseClause : PhpRule := .node .baseClause (.seq (kw "extends") (commaList className))

def interfaceClause : PhpRule :=
  .node .interfaceClause (.seq (kw "implements") (commaList className))

def members : PhpRule := .node .members (braces (.many (.ref .member)))

def anonymousClass : PhpRule :=
  .node .anonymousClass (all [opt attributes, .many modifier, kw "class", opt arguments,
    opt baseClause, opt interfaceClause, members])

def parenthesized : PhpRule := .node .parenthesized (parens expression)

def memberStep : PhpRule :=
  .node .memberAccess (.seq (oneSym ["->", "?->"]) (oneOf [word, variableName, braces expression]))

def subscriptStep : PhpRule := .node .subscript (between "[" (opt expression) "]")

def scopedPropertyStep : PhpRule := .node .scopedProperty (.seq (sym "::") variableName)

def newTarget : PhpRule :=
  .alt (.grow (.alt variableName (.alt (.node .relativeName (.seq (kw "namespace") segments))
      (nameOf (.noneOf ["class"])))) fun _ => oneOf [memberStep, subscriptStep, scopedPropertyStep])
    parenthesized

def objectCreation : PhpRule :=
  let given := .alt arguments (.notAhead (.symbol "("))
  .node .objectCreation (.seq (kw "new") (.alt anonymousClass (.seq newTarget given)))

def matchExpression : PhpRule :=
  let conditions := .alt (kw "default") (commaList expression)
  .node .matchExpression (all [kw "match", parens expression,
    braces (trailingList (all [conditions, opt (sym ","), sym "=>", expression]))])

/-! ### Operands -/

def yieldExpression : PhpRule :=
  .node .expression (.seq (kw "yield") (opt (.alt (.seq (kw "from") expression)
    (.seq expression (opt (.seq (sym "=>") expression))))))

def primary : PhpRule :=
  oneOf [variableName, literal, array, .seq (.ref .listPattern) (.ahead (.symbol "=")),
    parenthesized, objectCreation, closure, arrowFunction, matchExpression, yieldExpression,
    .node .relativeName (.seq (kw "namespace") segments), nameOf (.noneOf expressionWords)]

def scopeStep : PhpRule :=
  oneOf [scopedPropertyStep,
    .node .classConstant (.seq (sym "::") (.alt label (braces expression)))]

def callStep : PhpRule := .node .call arguments

def accessSteps : PhpRule := oneOf [memberStep, subscriptStep, scopeStep, callStep]

def assignStep : PhpRule :=
  .alt (.node .referenceAssignment (all [sym "=", sym "&", expression]))
    (.node .assignment (.seq (sym "=") expression))

def compoundAssignStep : PhpRule :=
  .node .compoundAssignment (.seq (oneSym ["+=", "-=", "*=", "/=", ".=", "%=", "&=", "|=", "^=",
    "<<=", ">>=", "**=", "??="]) expression)

def incrementStep : PhpRule := .node .increment (oneSym ["++", "--"])

def following : Kind → PhpRule
  | .variableName | .subscript | .memberAccess | .scopedProperty | .call =>
    oneOf [accessSteps, assignStep, compoundAssignStep, incrementStep]
  | .array => .alt accessSteps assignStep
  | .listPattern => assignStep
  | .name | .qualifiedName | .relativeName | .classConstant | .parenthesized | .singleQuoted
  | .doubleQuoted | .template | .heredoc | .nowdoc | .objectCreation => accessSteps
  | _ => .never

/-- The types a value can be converted to. -/
def conversions : List String :=
  ["array", "binary", "bool", "boolean", "double", "int", "integer", "float", "object", "real",
   "string", "unset"]

def leading : PhpRule :=
  oneOf [oneSym ["!", "-", "+", "@", "~", "++", "--"], parens (oneKw conversions),
    oneKw ["clone", "print", "include", "include_once", "require", "require_once", "throw"]]

def operand : PhpRule := .seq (.many leading) (.grow primary following)

/-- An operator between operands, or the middle of a conditional. -/
def infixOperator : PhpRule :=
  oneOf [oneSym [".", "+", "-", "*", "/", "%", "**", "??", "||", "&&", "|", "^", "&", "===", "!==",
      "==", "!=", "<>", "<=>", "<=", ">=", "<<", ">>", "<", ">"],
    oneKw ["instanceof", "and", "or", "xor"], all [sym "?", opt expression, sym ":"]]

def expressionRule : PhpRule :=
  .several .expression (.seq operand (.many (.seq infixOperator operand)))

end EloquentEntity.Syntax.Rules

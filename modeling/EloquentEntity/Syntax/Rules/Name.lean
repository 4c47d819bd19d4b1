import EloquentEntity.Syntax.Grammar

/-!
Rules for names and types.
-/

namespace EloquentEntity.Syntax

/-- The rules that other rules call by name, since they contain each other. -/
inductive RuleName where
  | expression | listPattern | statement | type | attributes | member | enumMember
  deriving DecidableEq, Repr

abbrev PhpRule := Rule RuleName

namespace Rules

open Rule

def expression : PhpRule := .ref .expression
def statement : PhpRule := .ref .statement
def type : PhpRule := .ref .type
def attributes : PhpRule := .ref .attributes

/-- The end of a statement: a semicolon, or a closing tag next. -/
def terminator : PhpRule := .alt (sym ";") (.ahead .afterTag)

def between (l : String) (a : PhpRule) (r : String) : PhpRule := all [sym l, a, sym r]

def braces (a : PhpRule) : PhpRule := between "\x7b" a "\x7d"

def parens (a : PhpRule) : PhpRule := between "(" a ")"

/-! ### Names -/

def word : PhpRule := kind .word

def label : PhpRule := .node .name word

/-- A backslash and a segment, once or more. -/
def segments : PhpRule := many1 (.seq (sym "\\") word)

/-- A class name whose first word fits a pattern: with a backslash in front or inside, or a single
word. -/
def nameOf (p : Pattern) : PhpRule :=
  oneOf [.node .qualifiedName segments, .node .qualifiedName (.seq (.token p) segments),
    .node .name (.token p)]

def className : PhpRule :=
  .alt (.node .relativeName (.seq (kw "namespace") segments)) (nameOf (.kind .word))

def namespaceName : PhpRule := .node .namespaceName (.seq word (opt segments))

/-! ### Types -/

/-- The built-in types, which are written in lower case. -/
def primitives : List String :=
  ["int", "float", "bool", "string", "array", "callable", "iterable", "object", "mixed", "void",
   "null", "true", "false"]

def simpleType : PhpRule :=
  .alt (.node .primitiveType (oneOf (primitives.map fun w => .token (.exactly w))))
    (.node .namedType className)

def typeRule : PhpRule :=
  let part := .alt simpleType (parens type)
  .alt (.node .optionalType (.seq (sym "?") simpleType))
    (.several .compositeType (.seq part (.many (.seq (oneSym ["|", "&"]) part))))

def returnType : PhpRule :=
  .node .returnType (.seq (sym ":") (.alt (.node .neverType (.token (.exactly "never"))) type))

end Rules

end EloquentEntity.Syntax

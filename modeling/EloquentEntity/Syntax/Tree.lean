import EloquentEntity.Syntax.Token

/-!
Syntax trees, their source text, and their search in document order.

A tree keeps every token with its gap, so that the source can be read back off it. Document order
puts a tree before its subtrees and an earlier subtree before a later one.
-/

namespace EloquentEntity.Syntax

/-- What a piece of source is. -/
inductive Kind where
  -- the whole and its statements
  | program | statement | block | returnStatement | namespaceDeclaration
  -- names
  | name | qualifiedName | relativeName
  -- imports
  | useDeclaration | useClause | useGroup | namespaceName
  -- declarations and their parts
  | classDeclaration | interfaceDeclaration | traitDeclaration | enumDeclaration
  | functionDeclaration | baseClause | interfaceClause | members | methodDeclaration
  | propertyDeclaration | propertyElement | propertyHooks | constantDeclaration | enumCase
  | traitUse | modifier | staticModifier | attributes | parameters | parameter
  -- types
  | primitiveType | namedType | optionalType | compositeType | neverType | returnType
  -- literals
  | number | singleQuoted | doubleQuoted | template | heredoc | nowdoc
  | array | arrayElement | byReference | spread | listPattern
  -- variables and access
  | variableName | subscript | memberAccess | scopedProperty | classConstant | call | arguments
  -- other expressions
  | parenthesized | assignment | referenceAssignment | compoundAssignment | increment
  | objectCreation | anonymousClass | closure | arrowFunction | matchExpression | expression
  deriving DecidableEq, Repr, Inhabited

inductive Tree where
  | leaf (t : Token)
  | node (k : Kind) (children : List Tree)
  deriving Repr, Inhabited

namespace Tree

def kind? : Tree → Option Kind
  | leaf _ => none
  | node k _ => some k

def is (k : Kind) (t : Tree) : Bool := t.kind? == some k

def isOneOf (ks : List Kind) (t : Tree) : Bool := ks.any t.is

def children : Tree → List Tree
  | leaf _ => []
  | node _ cs => cs

/-- The subtrees that are no single tokens. -/
def nodes (t : Tree) : List Tree := t.children.filter (·.kind?.isSome)

def childrenOf (k : Kind) (t : Tree) : List Tree := t.children.filter (·.is k)

def child? (k : Kind) (t : Tree) : Option Tree := t.children.find? (·.is k)

/-- A direct child is a token that the pattern accepts. -/
def hasToken (p : Pattern) (t : Tree) : Bool :=
  t.children.any fun
    | leaf t => p.accepts t.lexeme
    | node .. => false

/-! ### Source text -/

mutual

def tokens : Tree → List Token
  | leaf t => [t]
  | node _ cs => tokensAll cs

def tokensAll : List Tree → List Token
  | [] => []
  | t :: ts => tokens t ++ tokensAll ts

end

/-- The text of tokens without the gap before the first. -/
def joinTokens : List Token → List Char
  | [] => []
  | t :: ts => t.text ++ ts.flatMap Token.written

/-- The source text of a tree, without the gap before it. -/
def text (t : Tree) : List Char := joinTokens t.tokens

/-! ### Document order -/

mutual

/-- A tree and all its subtrees in document order. -/
def preorder : Tree → List Tree
  | leaf t => [leaf t]
  | node k cs => node k cs :: preorderAll cs

def preorderAll : List Tree → List Tree
  | [] => []
  | t :: ts => preorder t ++ preorderAll ts

end

mutual

def size : Tree → Nat
  | leaf _ => 1
  | node _ cs => sizeAll cs + 1

def sizeAll : List Tree → Nat
  | [] => 0
  | t :: ts => size t + sizeAll ts

end

/-- Visits trees from a stack: each one is taken from the top and its children are put back. -/
def visit : Nat → List Tree → List Tree
  | 0, _ | _, [] => []
  | fuel + 1, t :: stack => t :: visit fuel (t.children ++ stack)

def walk (t : Tree) : List Tree := visit t.size [t]

def findAll (p : Tree → Bool) (t : Tree) : List Tree := t.walk.filter p

def find? (p : Tree → Bool) (t : Tree) : Option Tree := t.walk.find? p

end Tree

end EloquentEntity.Syntax

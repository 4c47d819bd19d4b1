import EloquentEntity.Syntax.Literal

/-!
Parts of class declarations, and the search for members anywhere in a source.

The first declaration in document order decides, whichever class it stands in.
-/

namespace EloquentEntity.Syntax.Tree

/-- The text of a name: the source text without white space. -/
def nameText (t : Tree) : String := String.ofList (Text.withoutBlanks t.text)

def sourceText (t : Tree) : String := String.ofList t.text

def firstClass? (root : Tree) : Option Tree := root.find? (·.is .classDeclaration)

def membersOf (k : Kind) (declaration : Tree) : List Tree :=
  match declaration.child? .members with
  | some body => body.childrenOf k
  | none => []

def declaredName (declaration : Tree) : String :=
  ((declaration.child? .name).map sourceText).getD ""

def parameterList (function : Tree) : List Tree :=
  ((function.child? .parameters).map (childrenOf .parameter)).getD []

def isStatic (declaration : Tree) : Bool := (declaration.child? .staticModifier).isSome

def declaredType? (function : Tree) : Option Tree :=
  (function.child? .returnType).bind (·.nodes.head?)

/-- What the first `return` returns that is itself a statement of the body. -/
def firstReturn? (function : Tree) : Option Tree :=
  ((function.child? .block).bind (·.child? .returnStatement)).bind (·.nodes.head?)

def method? (declaration : Tree) (name : String) : Option Tree :=
  (declaration.membersOf .methodDeclaration).find? (·.declaredName == name)

/-! ### Properties -/

def propertyName (element : Tree) : String :=
  match element.child? .variableName with
  | some v => String.ofList (v.text.dropWhile (· == '$'))
  | none => ""

def initializer? (element : Tree) : Option Tree := element.nodes[1]?

/-- The properties of all declarations in document order, the static ones only if asked for. -/
def properties (root : Tree) (allowStatic : Bool) : List Tree :=
  ((root.findAll (·.is .propertyDeclaration)).filter fun d => allowStatic || !d.isStatic).flatMap
    (childrenOf .propertyElement)

/-- The initial value of the first property of that name. -/
def propertyDefault? (root : Tree) (name : String) (allowStatic : Bool) : Option Tree :=
  ((root.properties allowStatic).find? (·.propertyName == name)).bind initializer?

end EloquentEntity.Syntax.Tree

import EloquentEntity.Casts.Keyword

/-!
The type that a method's declared return type stands for in a generated class.

A built-in type goes through the table of built-in types, an imported name is expanded, a name
with a backslash in front is kept. A type of several parts and a name that is not imported stand
for none.
-/

namespace EloquentEntity.Casts

open Syntax

/-- The interface of casts that transform a value themselves. -/
def attributesInterface : String := "Illuminate\\Contracts\\Database\\Eloquent\\CastsAttributes"

/-- The interface of classes that name the cast to use. -/
def castableInterface : String := "Illuminate\\Contracts\\Database\\Eloquent\\Castable"

/-- A name in the form that imports are looked up by. -/
def isPlainName (t : Tree) : Bool := t.isOneOf [.name, .qualifiedName]

def classOfName? (written : String) (imports : Imports) : Option String :=
  if written.toList.head? = some '\\' then some (ClassName.qualify written)
  else (imports.get? written).map ClassName.qualify

def simpleReturnType? (t : Tree) (imports : Imports) : Option String :=
  match t.kind? with
  | some .primitiveType => some (builtinType t.nameText)
  | some .namedType =>
    match t.nodes.head? with
    | some name => if isPlainName name then classOfName? name.nameText imports else none
    | none => none
  | _ => none

/-- The type that a declared type stands for; `?T` stands for what `T` does. -/
def returnType? (t : Option Tree) (imports : Imports) : Option String :=
  t.bind fun t =>
    if t.is .optionalType then t.nodes.head?.bind (simpleReturnType? · imports)
    else simpleReturnType? t imports

/-- The interfaces that a class says it implements, without a backslash in front. -/
def interfaces (declaration : Tree) (imports : Imports) : List String :=
  match declaration.child? .interfaceClause with
  | none => []
  | some clause => clause.nodes.map fun n =>
      let written := ClassName.bare n.nameText
      (imports.get? written).getD written

/-- The class that a static method `castUsing` returns an instance or the name of. -/
def castUsing? (declaration : Tree) (imports : Imports) : Option String :=
  match (declaration.method? "castUsing").filter Tree.isStatic with
  | none => none
  | some m =>
    match m.firstReturn? with
    | none => none
    | some t =>
      if t.is .objectCreation then
        (t.nodes.head?.filter isPlainName).map fun n => ClassName.resolve n.nameText imports
      else classReference? t imports

end EloquentEntity.Casts

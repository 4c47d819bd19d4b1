import EloquentEntity.Imports
import EloquentEntity.Log
import EloquentEntity.Text.LetterCase

/-!
The casts that a model declares, by column.

They stand in the property `$casts` and in what the method `casts()` returns. Both are arrays with
string keys; a value is a string or the name of a class. The method's entries go after the
property's and win.
-/

namespace EloquentEntity

/-- Cast descriptors by column. -/
abbrev CastMap := OrderedMap String String

namespace Casts

open Syntax

/-- The class that `Name::class` stands for. -/
def classReference? (t : Tree) (imports : Imports) : Option String :=
  match t.is .classConstant, t.nodes with
  | true, scope :: part :: more =>
    let last := ((part :: more).getLast?.getD part)
    let name := scope.nameText
    if Text.lower last.text != "class".toList || name = "" ||
        ["self", "static", "parent"].any (·.toList == Text.lower name.toList) then none
    else some (ClassName.resolve name imports)
  | _, _ => none

/-- The descriptor that an expression stands for. -/
def descriptor? (t : Tree) (imports : Imports) : Option String :=
  (Literal.value? t).or (classReference? t imports)

def literalEntry (imports : Imports) (item : Tree) : Option (String × String) :=
  match item.hasToken (.symbol "=>"), item.nodes with
  | true, [key, value] => do
    let k ← Literal.value? key
    let v ← descriptor? value imports
    pure (k, v)
  | _, _ => none

def entries (t : Tree) (imports : Imports) : List (String × String) :=
  if t.is .array then (t.childrenOf .arrayElement).filterMap (literalEntry imports) else []

/-- The literal map that an expression stands for; one that is no array stands for none. -/
def literalMap (t : Option Tree) (imports : Imports) : CastMap :=
  match t with
  | some t => OrderedMap.ofList (entries t imports)
  | none => ∅

/-- The first method `casts` without parameters. -/
def castsMethod? (root : Tree) : Option Tree :=
  (root.findAll (·.is .methodDeclaration)).find? fun m =>
    m.declaredName == "casts" && m.parameterList.isEmpty

def ofProperty (root : Tree) (imports : Imports) : CastMap :=
  literalMap (root.propertyDefault? "casts" false) imports

def ofMethod (root : Tree) (imports : Imports) : CastMap :=
  literalMap ((castsMethod? root).bind Tree.firstReturn?) imports

/-- The casts of a model. -/
def locate (root : Tree) (imports : Imports) : CastMap :=
  (ofProperty root imports).merge (ofMethod root imports)

def locateLog (root : Tree) (imports : Imports) : LogEntry :=
  let property := (ofProperty root imports).size
  let method := (ofMethod root imports).size
  .debug "entitygen.casts"
    s!"Located {(locate root imports).size} cast(s) ({property} from property, {method} from method)"

end Casts

end EloquentEntity

import EloquentEntity.ClassName
import EloquentEntity.Syntax.Member

/-!
The class imports of a source: short names with the full names they stand for.

A later import of a short name replaces an earlier one. Imports of functions and constants name no
class. In a group only the last segment of a member counts.
-/

namespace EloquentEntity

/-- Full names, without a backslash in front, by short name. -/
abbrev Imports := OrderedMap String String

namespace Imports

open Syntax

/-- An import of functions or constants. -/
def isNoClass (t : Tree) : Bool := t.hasToken (.oneOf ["function", "const"])

/-- The bare name in an import clause and the alias given to it. -/
def clauseParts? (clause : Tree) : Option (String × Option String) :=
  match clause.nodes with
  | [] => none
  | name :: more =>
    let bare := ClassName.bare name.nameText
    if bare = "" then none
    else some (bare, (more.getLast?.map Tree.nameText).filter (· ≠ ""))

/-- The clauses among the children of a declaration or group that import a class. -/
def classClauses (t : Tree) : List (String × Option String) :=
  ((t.childrenOf .useClause).filter (!isNoClass ·)).filterMap clauseParts?

/-- What a clause of its own imports. -/
def plainEntry : String × Option String → String × String
  | (name, newName) => (newName.getD (ClassName.short name), name)

/-- What a clause in a group imports. -/
def groupEntry (base : String) : String × Option String → String × String
  | (name, newName) =>
    let segment := ClassName.short name
    (newName.getD segment, if base = "" then segment else base ++ "\\" ++ segment)

def declarationEntries (d : Tree) : List (String × String) :=
  if isNoClass d then []
  else match d.child? .useGroup with
    | some group =>
      let base := ((d.child? .namespaceName).map fun n => ClassName.bare n.nameText).getD ""
      (classClauses group).map (groupEntry base)
    | none => (classClauses d).map plainEntry

def entries (root : Tree) : List (String × String) :=
  (root.findAll (·.is .useDeclaration)).flatMap declarationEntries

/-- The imports of a source. -/
def collect (root : Tree) : Imports := OrderedMap.ofList (entries root)

end Imports

end EloquentEntity

import EloquentEntity.Log
import EloquentEntity.Naming
import EloquentEntity.Syntax.Member

/-!
The table behind a model: the one that is asked for, else the one that the model declares in its
property `$table`, else the one it has by convention. Empty names count as none.
-/

namespace EloquentEntity

open Syntax

def declaredTable? (root : Tree) : Option String :=
  ((root.propertyDefault? "table" false).bind Literal.value?).filter (· ≠ "")

def tableOf (root : Tree) (model : String) (override : Option String) : String :=
  ((override.filter (· ≠ "")).or (declaredTable? root)).getD (Naming.tableName model)

/-- A declared table is told of where it is used. -/
def declarationLog (root : Tree) (model : String) (override : Option String) : List LogEntry :=
  match override.filter (· ≠ ""), declaredTable? root with
  | none, some table => [.debug "entitygen.schema" s!"Model {model} declares table {table}"]
  | _, _ => []

end EloquentEntity

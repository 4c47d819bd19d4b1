import EloquentEntity.Database.Columns
import EloquentEntity.Raw

/-!
The ways in which a run fails.

A refusal is told of in the program's own words and has the exit code of its phase. A fault is a
value or file that no step makes provision for.
-/

namespace EloquentEntity

inductive Phase where
  | precondition | parse | schema | write
  deriving DecidableEq, Repr

def Phase.exitCode : Phase → Nat
  | precondition => 1
  | parse => 2
  | schema => 3
  | write => 4

inductive Refusal where
  | noModel (path : Path)
  | outputExists (path : Path)
  | unreadableModel (path : Path) (e : FileTree.ReadError)
  | syntaxError (path : Path)
  | schema (e : Database.SchemaError)
  | unwritable (path : Path) (e : FileError)
  deriving DecidableEq, Repr

namespace Refusal

def phase : Refusal → Phase
  | noModel _ | outputExists _ | unreadableModel _ _ => .precondition
  | syntaxError _ => .parse
  | schema _ => .schema
  | unwritable _ _ => .write

def message : Refusal → String
  | noModel p => s!"Model file [{p}] does not exist."
  | outputExists p => s!"File [{p}] already exists. Use --force to overwrite."
  | unreadableModel p e => s!"Cannot read model file [{p}]: {e.message}"
  | syntaxError p => s!"Parse error in model file [{p}]: Syntax error"
  | schema e => e.message
  | unwritable p e => s!"Cannot write [{p}]: {e.message}"

end Refusal

inductive Fault where
  /-- A column that makes no property. -/
  | invalid (issues : List FieldIssue)
  | badPort (e : DatabaseUrl.PortError)
  | column (e : Database.ColumnFault)
  /-- An environment file that cannot be read, or a file that the system does not answer for. -/
  | unreadable (e : FileTree.ReadError)
  /-- A path that no system takes. -/
  | nullCharacter
  deriving DecidableEq, Repr

inductive Failure where
  | refused (r : Refusal)
  | fault (f : Fault)
  deriving DecidableEq, Repr

namespace Fault

def message : Fault → String
  | invalid issues =>
    "\n".intercalate (issues.map fun i => ".".intercalate i.place ++ ": " ++ i.issue.message)
  | badPort e => e.message
  | column e => e.message
  | unreadable e => e.message
  | nullCharacter => FileFault.nullCharacter.message ""

end Fault

namespace Failure

def ofColumnError : Database.ColumnError → Failure
  | .schema e => .refused (.schema e)
  | .fault e => .fault (.column e)

def ofChoiceError : Database.ChoiceError → Failure
  | .unreadable e => .fault (.unreadable e)
  | .badPort e => .fault (.badPort e)

end Failure

end EloquentEntity

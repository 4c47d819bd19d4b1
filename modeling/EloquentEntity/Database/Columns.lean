import EloquentEntity.Database.Choice
import EloquentEntity.Database.Engine
import EloquentEntity.Session

/-!
The columns of a table, read from the database that a URL names.
-/

namespace EloquentEntity.Database

open Procedure

inductive SchemaError where
  | notConfigured
  /-- The URL as it may be shown, and what is wrong with it. -/
  | unusable (shown : String) (fault : UrlFault)
  | unreadable (table : String) (fault : OpenFault)
  | noTable (table : String)
  deriving DecidableEq, Repr

def SchemaError.message : SchemaError → String
  | notConfigured =>
    "No database configured. Pass --database-url, set DATABASE_URL, or provide DB_* settings in the project's .env."
  | unusable shown fault => s!"Cannot use database URL {shown}: {fault.message}"
  | unreadable table fault => s!"Cannot read columns of [{table}]: {fault.message}"
  | noTable table => s!"Table [{table}] does not exist."

/-- A value that no step makes provision for. -/
inductive ColumnFault where
  | badPort (e : DatabaseUrl.PortError)
  | manyParts
  /-- A database file of a path that no system takes. -/
  | nullCharacter
  /-- No URL at all. -/
  | noSource
  deriving DecidableEq, Repr

def ColumnFault.message : ColumnFault → String
  | badPort e => e.message
  | manyParts => "too many values to unpack (expected 2)"
  | nullCharacter => FileFault.nullCharacter.message ""
  | noSource => "Either database_url or engine is required."

inductive ColumnError where
  | schema (e : SchemaError)
  | fault (f : ColumnFault)
  deriving DecidableEq, Repr

def ColumnError.message : ColumnError → String
  | schema e => e.message
  | fault f => f.message

def shownUrl (url : String) : Procedure ColumnError String :=
  (ofExcept (redactUrl (some url))).mapError fun e => .fault (.badPort e)

def engineFor (url : String) : Procedure ColumnError Engine := do
  match engineOf (← files).currentPath url with
  | .ok e => return e
  | .error (.unusable fault) => throw (.schema (.unusable (← shownUrl url) fault))
  | .error (.badPort e) => throw (.fault (.badPort e))
  | .error .manyParts => throw (.fault .manyParts)

def openFor (table : String) (engine : Engine) (files : FileTree) :
    Except ColumnError (List Table × FileTree) :=
  if engine.hasNull then .error (.fault .nullCharacter)
  else (engine.open files).mapError fun fault => .schema (.unreadable table fault)

def columnsIn (tables : List Table) (table : String) : Except SchemaError (List String) :=
  if table.toList.contains '\x00' then .error (.unreadable table .nullInQuery)
  else match columnsOf? tables table with
    | none => .error (.noTable table)
    | some columns => .ok columns

def readColumns (engine : Engine) (table : String) : Procedure ColumnError (List String) := do
  let (tables, files) ← Procedure.ofExcept (openFor table engine (← files))
  change fun _ => .ok files
  let columns ← (Procedure.ofExcept (columnsIn tables table)).mapError ColumnError.schema
  note (.info speaker s!"Table {table} has {columns.length} column(s)")
  return columns

/-- Where columns are read from: a database that is named anew at each reading, or one that has
been named once. -/
inductive TableSource where
  | url (u : String)
  | engine (e : Engine)
  deriving DecidableEq, Repr

namespace TableSource

def ofUrl (url : Option String) : Except ColumnError TableSource :=
  match url with
  | none => .error (.fault .noSource)
  | some u => .ok (.url u)

def columns (source : TableSource) (table : String) : Procedure ColumnError (List String) := do
  match source with
  | url u => readColumns (← engineFor u) table
  | engine e => readColumns e table

end TableSource

end EloquentEntity.Database

import EloquentEntity.Database.EnvFile
import EloquentEntity.Database.Url
import EloquentEntity.Files.Tree
import EloquentEntity.Log
import EloquentEntity.Text.LetterCase

/-!
The database of a project: the URL that is asked for, else the one in the process environment,
else the one that the project's `.env` file gives.
-/

namespace EloquentEntity.Database

abbrev Environment := List (String × String)

def speaker : String := "entitygen.schema"

inductive ChoiceError where
  | unreadable (e : FileTree.ReadError)
  | badPort (e : DatabaseUrl.PortError)
  deriving DecidableEq, Repr

/-- Drivers by the framework's name of a connection. -/
def drivers : List (String × String) :=
  [("mysql", "mysql+pymysql"), ("mariadb", "mysql+pymysql"), ("pgsql", "postgresql+psycopg"),
   ("sqlsrv", "mssql+pyodbc"), ("sqlite", "sqlite")]

/-- A variable of an environment file that is not empty. -/
def setting (file : OrderedMap String (Option String)) (name : String) : Option String :=
  ((file.get? name).bind id).filter (· ≠ "")

/-- The URL of a database in a file. A relative path is taken from `base`. -/
def fileUrl (base : Path) (database : Option String) : String :=
  "sqlite:///" ++ toString (base.below (database.getD "database/database.sqlite"))

/-- A port of digits only; anything else gives none. -/
def portOf (port : Option String) : Except ChoiceError (Option Int) :=
  match port with
  | none => .ok none
  | some s =>
    if s.toList.all Text.isDigit then
      match Text.readInteger s.toList with
      | .ok n => .ok (some n)
      | .error e => .error (.badPort ⟨s.toList, e⟩)
    else .ok none

def serverUrl (driver : String) (file : OrderedMap String (Option String)) :
    Except ChoiceError String :=
  match portOf (setting file "DB_PORT") with
  | .error e => .error e
  | .ok port => .ok <| DatabaseUrl.render {
      driver
      username := setting file "DB_USERNAME"
      password := setting file "DB_PASSWORD"
      host := setting file "DB_HOST"
      port
      database := setting file "DB_DATABASE"
      query := [] }

/-- The name of the connection, trimmed and in lower case. -/
def connection (file : OrderedMap String (Option String)) : String :=
  String.ofList (Text.lower (Text.trim ((setting file "DB_CONNECTION").getD "").toList))

/-- The URL that the variables of an environment file give. The file is at `place`; `base` is
where relative paths start. -/
def urlOfVariables (place base : Path) (file : OrderedMap String (Option String)) :
    Except ChoiceError (Option String) × List LogEntry :=
  match (setting file "DB_URL").or (setting file "DATABASE_URL") with
  | some url => (.ok (some url), [])
  | none =>
    let name := connection file
    match drivers.lookup name with
    | none =>
      (.ok none,
        if name = "" then []
        else [.warning speaker s!"Unsupported DB_CONNECTION '{name}' in {place}"])
    | some driver =>
      if driver = "sqlite" then (.ok (some (fileUrl base (setting file "DB_DATABASE"))), [])
      else ((serverUrl driver file).map some, [])

/-- The URL that an environment file gives; without the file there is none. -/
def urlOfFile (files : FileTree) (process : Environment) (place : Path) (project : Option Path) :
    Except ChoiceError (Option String) × List LogEntry :=
  match files.isFile place with
  | .error e => (.error (.unreadable (.file e)), [])
  | .ok false => (.ok none, [])
  | .ok true =>
    match files.read place with
    | .error e => (.error (.unreadable e), [])
    | .ok text =>
      urlOfVariables place (project.getD place.parent) (EnvFile.variablesOf process text)

/-- The variables of the process that may hold a URL; the first that does counts. -/
def processVariables : List String := ["ENTITYGEN_DATABASE_URL", "DATABASE_URL"]

/-- The URL in the process environment, and the variable that holds it. -/
def processUrl? (process : Environment) : Option (String × String) :=
  processVariables.findSome? fun v =>
    ((process.lookup v).filter (· ≠ "")).map fun url => (v, url)

/-- The URL to use. `process` is where a URL is looked for, `inherited` what references in the
file see. -/
def choose (files : FileTree) (explicit : Option String) (process inherited : Environment)
    (project : Path) : Except ChoiceError (Option String) × List LogEntry :=
  match explicit.filter (· ≠ ""), processUrl? process with
  | some url, _ => (.ok (some url), [])
  | none, some (v, url) => (.ok (some url), [.debug speaker s!"Using database URL from ${v}"])
  | none, none =>
    let place := project.below ".env"
    match urlOfFile files inherited place (some project) with
    | (.ok (some url), log) =>
      (.ok (some url),
        if url = "" then log else log ++ [.debug speaker s!"Using database URL from {place}"])
    | r => r

end EloquentEntity.Database

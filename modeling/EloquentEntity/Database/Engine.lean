import EloquentEntity.Database.Url
import EloquentEntity.Files.Tree

/-!
The database that a URL names: one in memory, which is empty, or one in a file.

The URL's driver says which library has to be there. Only that for database files is.
-/

namespace EloquentEntity.Database

inductive UrlFault where
  | malformed
  | unknownPlugin (name : String)
  | unknownDriver (name : String)
  | noLibrary (name : String)
  /-- A database file has no server; the URL is given as it may be shown. -/
  | namesServer (shown : String)
  deriving DecidableEq, Repr

def UrlFault.message : UrlFault → String
  | malformed => "Could not parse SQLAlchemy URL from given URL string"
  | unknownPlugin name => s!"Can't load plugin: sqlalchemy.plugins:{name}"
  | unknownDriver name => s!"Can't load plugin: sqlalchemy.dialects:{name}"
  | noLibrary name => s!"No module named '{name}'"
  | namesServer shown =>
    s!"Invalid SQLite URL: {shown}\nValid SQLite URL forms are sqlite:///:memory: or sqlite:////absolute/path/to/file.db"

inductive EngineError where
  | unusable (fault : UrlFault)
  | badPort (e : DatabaseUrl.PortError)
  /-- A driver's name of more than two parts. -/
  | manyParts
  deriving DecidableEq, Repr

/-! ### Drivers -/

def defaultDriver : String := "base"

/-- Libraries by database and driver, for all but plain database files. -/
def serverLibraries : List (String × List (String × String)) :=
  [("mysql", mysql), ("mariadb", mysql),
   ("postgresql", [("base", "psycopg"), ("psycopg", "psycopg"),
     ("psycopg_async", "psycopg"), ("psycopg2", "psycopg2"), ("psycopg2cffi", "psycopg2cffi"),
     ("asyncpg", "asyncpg"), ("pg8000", "pg8000")]),
   ("mssql", [("base", "pyodbc"), ("pyodbc", "pyodbc"), ("pymssql", "pymssql"),
     ("aioodbc", "aioodbc")]),
   ("oracle", [("base", "oracledb"), ("oracledb", "oracledb"),
     ("oracledb_async", "oracledb"), ("cx_oracle", "cx_Oracle")]),
   ("sqlite", [("aiosqlite", "aiosqlite"), ("pysqlcipher", "pysqlcipher3")])]
where
  mysql : List (String × String) :=
    [("base", "MySQLdb"), ("mysqldb", "MySQLdb"), ("pymysql", "pymysql"),
     ("pyodbc", "pyodbc"), ("mysqlconnector", "mysql"), ("cymysql", "cymysql"),
     ("aiomysql", "aiomysql"), ("asyncmy", "asyncmy"), ("mariadbconnector", "mariadb")]

def fileDrivers : List String := ["base", "pysqlite"]

/-- Database and driver of a name with a plus sign between them. -/
def splitDriver (name : String) : Except EngineError (String × String) :=
  match DatabaseUrl.splitOn '+' name.toList with
  | [d] => .ok (String.ofList d, defaultDriver)
  | [d, l] => .ok (String.ofList d, String.ofList l)
  | _ => .error .manyParts

def checkDriver (name : String) : Except EngineError Unit :=
  match splitDriver name with
  | .error e => .error e
  | .ok (database, driver) =>
    if database = "sqlite" ∧ fileDrivers.contains driver then .ok ()
    else match (serverLibraries.lookup database).bind (·.lookup driver) with
      | some library => .error (.unusable (.noLibrary library))
      | none => .error (.unusable (.unknownDriver (dotted name)))
where
  /-- The name with points for its plus signs. -/
  dotted (name : String) : String :=
    String.ofList (name.toList.map fun c => if c == '+' then '.' else c)

/-! ### Engines -/

inductive Engine where
  | memory
  /-- The file at an absolute path. -/
  | file (path : Path)
  deriving DecidableEq, Repr

/-- Whether a URL says more than a path. -/
def namesServer (u : DatabaseUrl) : Bool :=
  u.username.any (· ≠ "") || u.password.any (· ≠ "") || u.host.any (· ≠ "") || u.port.any (· ≠ 0)

/-- The database of a URL of a usable driver, with relative paths read from `here`. -/
def fileEngine (here : Path) (u : DatabaseUrl) : Except EngineError Engine :=
  if namesServer u then .error (.unusable (.namesServer u.redacted))
  else match u.database.filter fun d => d ≠ "" ∧ d ≠ ":memory:" with
    | none => .ok .memory
    | some d => .ok (.file (here.resolve (Path.ofString d)))

def engineOf (here : Path) (url : String) : Except EngineError Engine :=
  match DatabaseUrl.parse url with
  | .error .malformed => .error (.unusable .malformed)
  | .error (.badPort e) => .error (.badPort e)
  | .ok u =>
    match u.query.lookup "plugin" with
    | some p => .error (.unusable (.unknownPlugin p))
    | none =>
      match checkDriver u.driver with
      | .error e => .error e
      | .ok () => fileEngine here u

/-! ### Tables -/

inductive OpenFault where
  | cannotOpen
  | notADatabase
  /-- A table's name has a null character. -/
  | nullInQuery
  deriving DecidableEq, Repr

def OpenFault.message : OpenFault → String
  | cannotOpen => "(sqlite3.OperationalError) unable to open database file"
  | notADatabase => "(sqlite3.DatabaseError) file is not a database"
  | nullInQuery => "(sqlite3.ProgrammingError) the query contains a null character"

abbrev Table := String × List String

/-- The bytes that the path of a database file may have. -/
def pathLimit : Nat := 504

/-- The tables of a database file. A missing file is made, in a directory that exists; an empty
file is an empty database. -/
def openFile (files : FileTree) (path : Path) : Except OpenFault (List Table × FileTree) :=
  if pathLimit < (toString { path with root := .slash }).utf8ByteSize then .error .cannotOpen
  else match files.at? path with
  | some (.database tables) => .ok (tables, files)
  | some (.file []) => .ok ([], files)
  | some (.file _) => .error .notADatabase
  | some .directory => .error .cannotOpen
  | none =>
    match files.create path [] with
    | .ok files => .ok ([], files)
    | .error _ => .error .cannotOpen

def Engine.open (files : FileTree) : Engine → Except OpenFault (List Table × FileTree)
  | memory => .ok ([], files)
  | file path => openFile files path

/-- Whether the database is a file of a path that no system takes. -/
def Engine.hasNull : Engine → Bool
  | memory => false
  | file path => (toString path).toList.contains '\x00'

/-- The tables that describe a database itself. -/
def catalogues : List Table :=
  ["sqlite_master", "sqlite_schema", "sqlite_temp_master", "sqlite_temp_schema"].map fun name =>
    (name, ["type", "name", "tbl_name", "rootpage", "sql"])

/-- A table's name as it is compared: without the case of ASCII letters. -/
def folded (name : String) : List Char := name.toList.map Char.toLower

def columnsOf? (tables : List Table) (name : String) : Option (List String) :=
  ((tables ++ catalogues).find? fun t => folded t.1 == folded name).map Prod.snd

end EloquentEntity.Database

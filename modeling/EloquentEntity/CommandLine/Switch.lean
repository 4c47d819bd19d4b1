/-!
The switches of the command line.
-/

namespace EloquentEntity.CommandLine

inductive Switch where
  | help | version | namespaceName | suffix | resource | force | dryRun | path | databaseUrl
  | table | verbose | quiet
  deriving DecidableEq, Repr

namespace Switch

def all : List Switch :=
  [help, version, namespaceName, suffix, resource, force, dryRun, path, databaseUrl, table,
   verbose, quiet]

/-- The ways to write a switch, the short one first. -/
def names : Switch → List String
  | help => ["-h", "--help"]
  | version => ["--version"]
  | namespaceName => ["-N", "--namespace"]
  | suffix => ["-s", "--suffix"]
  | resource => ["--resource"]
  | force => ["-f", "--force"]
  | dryRun => ["--dry-run"]
  | path => ["-p", "--path"]
  | databaseUrl => ["--database-url"]
  | table => ["--table"]
  | verbose => ["-v", "--verbose"]
  | quiet => ["-q", "--quiet"]

def takesValue : Switch → Bool
  | namespaceName | suffix | path | databaseUrl | table => true
  | _ => false

def spellings : List (String × Switch) :=
  all.flatMap fun s => s.names.map fun name => (name, s)

def describe (s : Switch) : String := "/".intercalate s.names

def ofLetter? (c : Char) : Option Switch := spellings.lookup (String.ofList ['-', c])

end Switch

end EloquentEntity.CommandLine

/-!
The texts that tell how to use the command line.
-/

namespace EloquentEntity.CommandLine

def usageLines : List String :=
  ["usage: entitygen [-h] [--version] [-N NS] [-s SUFFIX] [--resource] [-f]",
   "                 [--dry-run] [-p DIR] [--database-url URL] [--table TABLE]",
   "                 [-v] [-q]",
   "                 MODEL"]

def helpLines : List String :=
  ["",
   "Generate a Spatie Data-based Entity class from an Eloquent model by parsing its code (resolving imported classes, custom casts, etc.) and reading its table columns from the database.",
   "",
   "positional arguments:",
   "  MODEL                 The name of the Eloquent model (e.g. \"User\").",
   "",
   "options:",
   "  -h, --help            show this help message and exit",
   "  --version             show program's version number and exit",
   "",
   "output:",
   "  -N NS, --namespace NS",
   "                        The namespace (under \\App) to place this Entity class",
   "                        (default: Entities).",
   "  -s SUFFIX, --suffix SUFFIX",
   "                        The suffix to append to the generated class name",
   "                        (default: Entity).",
   "  --resource            Inherit Resource instead of Data.",
   "  -f, --force           Overwrite the file if it already exists.",
   "  --dry-run             Print the generated class instead of writing it.",
   "",
   "project:",
   "  -p DIR, --path DIR    Root of the Laravel project (default: current",
   "                        directory).",
   "  --database-url URL    SQLAlchemy database URL. Defaults to",
   "                        $ENTITYGEN_DATABASE_URL, $DATABASE_URL, then the",
   "                        project's .env DB_* settings.",
   "  --table TABLE         Read columns from this table instead of the model's",
   "                        table.",
   "",
   "verbosity:",
   "  -v, --verbose         Increase verbosity (-v for INFO, -vv for DEBUG).",
   "  -q, --quiet           Only report errors (and the class itself with --dry-",
   "                        run).",
   "",
   "Examples:",
   "  entitygen User",
   "  entitygen Post -N 'Http\\Resources' -s Resource --resource --force",
   "  entitygen User --dry-run"]

def textOfLines (lines : List String) : String := String.join (lines.map (· ++ "\n"))

def usageText : String := textOfLines usageLines

def helpText : String := textOfLines (usageLines ++ helpLines)

def versionText : String := "entitygen v0.1.0\n"

end EloquentEntity.CommandLine

import EloquentEntity.CommandLine.Arguments
import EloquentEntity.CommandLine.Usage
import EloquentEntity.Generate.Pipeline

/-!
The program as it is called from the command line: its output, its messages and its exit code.

A refusal becomes a message. A fault is left to the caller.
-/

namespace EloquentEntity.CommandLine

open Procedure

def speaker : String := "entitygen"

structure Outcome where
  exitCode : Nat
  output : String
  errors : String
  deriving DecidableEq, Repr

/-! ### Messages -/

namespace Arguments

def level (a : Arguments) : LogLevel :=
  if a.quiet then .error
  else match a.verbosity with
    | 0 => .warning
    | 1 => .info
    | _ => .debug

def shown (a : Arguments) (time : TimeFormat) (log : List LogEntry) : String :=
  textOfLines ((log.filter fun e => a.level.rank ≤ e.level.rank).map (·.line time.entry))

/-- The settings' fields, where paths are read from `here`. -/
def fields (a : Arguments) (here : Path) : List (String × Raw) :=
  let text := fun (s : Option String) => s.elim Raw.null Raw.text
  [("model", .text a.model), ("namespace", .text a.namespaceName), ("suffix", .text a.suffix),
   ("resource", .bool a.resource), ("force", .bool a.force), ("dry_run", .bool a.dryRun),
   ("project_path", .text (toString (here.canonical (.ofString a.path)))),
   ("database_url", text a.databaseUrl), ("table", text a.table)]

def announcement (a : Arguments) (r : Report) : String :=
  if a.dryRun then r.content
  else if a.quiet then ""
  else s!"Entity class [{r.className}] created at [{r.outputPath}].\n"

end Arguments

/-! ### Running -/

def issueLog (i : FieldIssue) : LogEntry :=
  .error speaker ("Invalid " ++ ".".intercalate i.place ++ ": " ++ i.issue.message)

/-- Generates a class; gives the exit code and the output. -/
def generate (a : Arguments) (process : Database.Environment) (time : TimeFormat) (c : Settings) :
    Procedure Fault (Nat × String) := do
  noteAll [.info speaker s!"Model:   {c.sourcePath}", .info speaker s!"Output:  {c.outputPath}"]
  match ← (Generate.generate c (Generate.columnsOfProject c process)).attempt with
  | .ok report =>
    note (.debug speaker ("\n" ++ report.summary time))
    return (0, a.announcement report)
  | .error (.fault f) => throw f
  | .error (.refused r) =>
    note (.error speaker r.message)
    return (r.phase.exitCode, "")

def perform (a : Arguments) (process : Database.Environment) (time : TimeFormat) :
    Procedure Fault (Nat × String) := do
  if a.path.toList.contains '\x00' then throw .nullCharacter
  match Settings.ofRaw (a.fields (← files).currentPath) with
  | .ok c => generate a process time c
  | .error issues =>
    noteAll (issues.map issueLog)
    return (Phase.precondition.exitCode, "")

/-- Runs the program on the words of a command line. -/
def run (words : List String) (process : Database.Environment) (time : TimeFormat) :
    Procedure Fault Outcome := do
  match readArguments words with
  | .error .help => return ⟨0, helpText, ""⟩
  | .error .version => return ⟨0, versionText, ""⟩
  | .error (.usage e) => return ⟨2, "", usageText ++ "entitygen: error: " ++ e.message ++ "\n"⟩
  | .ok a =>
    let (exitCode, output) ← perform a process time
    return ⟨exitCode, output, a.shown time (← get).log⟩

end EloquentEntity.CommandLine

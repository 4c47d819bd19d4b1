import EloquentEntity.Casts.Keyword
import EloquentEntity.Log
import EloquentEntity.Number.Fixed

/-!
The report of a run and its summary for a reader.
-/

namespace EloquentEntity

/-- A step of a run. Its time is counted in seconds. -/
structure Step where
  name : String
  elapsed : Float
  detail : String

structure Report where
  success : Bool
  className : String
  outputPath : String
  table : String
  dryRun : Bool
  columns : Int
  properties : Int
  imports : Int
  bytes : Int
  lines : Int
  elapsed : Float
  steps : List Step
  casts : CastMap
  columnTypes : ColumnTypes
  content : String

/-- How times are written: those of a run and of its steps in a summary, and that of a log
entry. -/
structure TimeFormat where
  total : Float → String
  step : Float → String
  entry : String

namespace Report

def blank : Report :=
  ⟨false, "", "", "", false, 0, 0, 0, 0, 0, 0, [], ∅, ∅, ""⟩

/-- `s` with spaces before it up to a width. -/
def padLeft (width : Nat) (s : String) : String :=
  String.ofList (List.replicate (width - s.length) ' ') ++ s

/-- Seconds with three places; those of a step are aligned. -/
def seconds : TimeFormat := ⟨Number.fixed 3, fun t => padLeft 7 (Number.fixed 3 t), "0.0000"⟩

def status (r : Report) : String :=
  if r.dryRun then "DRY RUN" else if r.success then "SUCCESS" else "FAILED"

def stepLine (time : TimeFormat) (s : Step) : String :=
  s!"    ✓ {LogEntry.padRight 24 s.name} {time.step s.elapsed}s  {s.detail}"

def stepLines (time : TimeFormat) : List Step → List String
  | [] => []
  | steps =>
    String.ofList (List.replicate 60 '─') :: "  Pipeline Steps:" :: steps.map (stepLine time)

def summaryLines (r : Report) (time : TimeFormat) : List String :=
  let rule := String.ofList (List.replicate 60 '=')
  [rule, "  entitygen: Generation Report", rule,
    "  Status:           " ++ r.status,
    "  Class:            " ++ r.className,
    "  Output:           " ++ r.outputPath,
    "  Table:            " ++ r.table,
    s!"  Columns:          {r.columns}",
    s!"  Properties:       {r.properties}",
    s!"  Casts:            {r.casts.size}",
    s!"  Imports:          {r.imports}",
    "  Total bytes:      " ++ Number.withCommas r.bytes,
    s!"  Total time:       {time.total r.elapsed}s"] ++ stepLines time r.steps ++ [rule]

def summary (r : Report) (time : TimeFormat) : String := "\n".intercalate (r.summaryLines time)

end Report

end EloquentEntity

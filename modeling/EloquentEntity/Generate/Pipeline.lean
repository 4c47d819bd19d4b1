import EloquentEntity.Casts.Resolver
import EloquentEntity.Entity.Template
import EloquentEntity.Files.Store
import EloquentEntity.Generate.Failure
import EloquentEntity.Generate.Report
import EloquentEntity.Table

/-!
A run: from a model to the file of its entity class.

The model is parsed, the types of its casts are found, the columns of its table are read, and the
class is rendered and written. The first failure ends the run.
-/

namespace EloquentEntity.Generate

open Procedure Syntax

def speaker : String := "entitygen.generator"

def refuse {α : Type} (r : Refusal) : Procedure Failure α := throw (.refused r)

abbrev ColumnSource := String → Procedure Failure (List String)

/-! ### Sources of columns -/

def columnsIn (tables : List Database.Table) : ColumnSource := fun table => do
  match tables.lookup table with
  | some columns => return columns
  | none => refuse (.schema (.noTable table))

def databaseUrl (c : Settings) (process : Database.Environment) : Procedure Failure String := do
  let (url, log) := Database.choose (← files) c.databaseUrl process process c.projectPath
  noteAll log
  match ← (ofExcept url).mapError Failure.ofChoiceError with
  | some url => if url = "" then refuse (.schema .notConfigured) else return url
  | none => refuse (.schema .notConfigured)

def columnsOfProject (c : Settings) (process : Database.Environment) : ColumnSource :=
  fun table => do
    let url ← databaseUrl c process
    let shown ← (Database.shownUrl url).mapError Failure.ofColumnError
    note (.info speaker s!"Database: {shown}")
    ((Database.TableSource.url url).columns table).mapError Failure.ofColumnError

/-! ### Steps -/

/-- What the system answers when a run asks about a file. -/
def answered {α : Type} (r : Except FileError α) : Procedure Failure α :=
  (ofExcept r).mapError fun e => .fault (.unreadable (.file e))

/-- A run needs the model, and a place for the class unless it may be overwritten. -/
def checkPreconditions (c : Settings) : Procedure Failure Unit := do
  let files ← files
  let hasModel ← answered (files.isFile c.sourcePath)
  if !hasModel then refuse (.noModel c.sourcePath)
  let hasOutput ← answered (files.isFile c.outputPath)
  if hasOutput ∧ !c.force ∧ !c.dryRun then refuse (.outputExists c.outputPath)

structure Model where
  root : Tree
  casts : CastMap

def parseModel (c : Settings) : Procedure Failure Model := do
  let path := c.sourcePath
  note (.debug speaker s!"Parsing {c.modelClass} from {path}")
  let source ← (ofExcept ((← files).read path)).mapError fun e =>
    .refused (.unreadableModel path e)
  match parse source with
  | none => refuse (.syntaxError path)
  | some root =>
    let imports := Imports.collect root
    note (Casts.importsLog imports)
    note (Casts.locateLog root imports)
    return ⟨root, Casts.locate root imports⟩

def lookUp (files : FileTree) (descriptor : String) :
    ExceptT FileError (StateM (Casts.Resolver × List LogEntry)) (Option String) :=
  ExceptT.mk fun (r, log) =>
    let (outcome, r, said) := r.resolve files descriptor
    let missing := match outcome with
      | .error _ => []
      | .ok type => if type.any (· ≠ "") then [] else
        [.debug "entitygen.casts" s!"No type for custom cast {descriptor}, using {Casts.stringType}"]
    (outcome, r, log ++ said ++ missing)

def resolveTypes (c : Settings) (casts : CastMap) : Procedure Failure ColumnTypes := do
  let resolve := Casts.columnTypes (lookUp (← files)) casts
  let (types, _, log) := (resolve.run.run (.new c.projectPath, [])).run
  noteAll log
  answered types

def readColumns (c : Settings) (source : ColumnSource) (root : Tree) :
    Procedure Failure (String × List String) := do
  let table := tableOf root c.model c.table
  noteAll (declarationLog root c.model c.table)
  return (table, ← source table)

def render (c : Settings) (columns : List String) (types : ColumnTypes) :
    Procedure Failure EntityDefinition := do
  let built := EntityDefinition.build c.fullNamespace c.className columns types c.baseClass
  let definition ← (ofExcept built).mapError fun issues => .fault (.invalid issues)
  noteAll definition.warnings
  return definition

def write (c : Settings) (text : String) : Procedure Failure Nat := do
  let store := Store.new c.dryRun
  let act : Procedure FileError (Nat × Store) := do
    store.makeDirectories c.outputDirectory
    store.write c.outputPath text
  return (← act.mapError fun e => .refused (.unwritable c.outputPath e)).1

/-! ### The run -/

def stepsOf (c : Settings) (casts : CastMap) (table : String) : List Step :=
  [⟨"parse model", 0, s!"{casts.size} cast(s)"⟩, ⟨"resolve types", 0, ""⟩,
    ⟨"read columns", 0, s!"table {table}"⟩, ⟨"render", 0, ""⟩,
    ⟨"write", 0, if c.dryRun then "skipped" else ""⟩]

/-- What a run has come to before it writes. -/
structure Draft where
  model : Model
  types : ColumnTypes
  table : String
  columns : List String
  definition : EntityDefinition

def draft (c : Settings) (source : ColumnSource) : Procedure Failure Draft := do
  checkPreconditions c
  let model ← timed "parse model" (parseModel c)
  let types ← timed "resolve types" (resolveTypes c model.casts)
  let (table, columns) ← timed "read columns" (readColumns c source model.root)
  let definition ← timed "render" (render c columns types)
  return { model, types, table, columns, definition }

def Draft.report (d : Draft) (c : Settings) (bytes : Nat) : Report :=
  let content := d.definition.render
  { success := true
    className := c.className
    outputPath := toString c.outputPath
    table := d.table
    dryRun := c.dryRun
    columns := d.columns.length
    properties := d.definition.properties.length
    imports := d.definition.imports.length
    bytes
    lines := Text.lineCount content
    elapsed := 0
    steps := stepsOf c d.model.casts d.table
    casts := d.model.casts
    columnTypes := d.types
    content }

def steps (c : Settings) (source : ColumnSource) : Procedure Failure Report := do
  let d ← draft c source
  let bytes ← timed "write" (write c d.definition.render)
  return d.report c bytes

def propertiesWord (n : Int) : String := if n = 1 then "property" else "properties"

/-- Generates the class that the settings ask for. -/
def generate (c : Settings) (source : ColumnSource) : Procedure Failure Report := do
  let report ← timed "total" (steps c source)
  note (.info speaker
    s!"Entity class [{c.className}] rendered with {report.properties} {propertiesWord report.properties}")
  return report

end EloquentEntity.Generate

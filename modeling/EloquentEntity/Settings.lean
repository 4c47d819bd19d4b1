import EloquentEntity.Files.Path
import EloquentEntity.Raw
import EloquentEntity.Text.Blank
import EloquentEntity.Text.Label

/-!
The settings of a run, made from raw values, and the names and paths that follow from them.

A value is checked alike when settings are made and when a field is assigned later; a refused
value changes nothing.
-/

namespace EloquentEntity

inductive BaseClass where
  | data
  | resource
  deriving DecidableEq, Repr, Inhabited

namespace BaseClass

def name : BaseClass → String
  | data => "Data"
  | resource => "Resource"

def all : List BaseClass := [data, resource]

def importName (b : BaseClass) : String := "Spatie\\LaravelData\\" ++ b.name

def ofName (name : String) : Except String BaseClass :=
  match all.find? (·.name == name) with
  | some b => .ok b
  | none => .error s!"{String.ofList (Text.quoted name.toList)} is not a valid BaseClassKind"

end BaseClass

structure Settings where
  model : String
  namespaceName : String
  suffix : String
  resource : Bool
  force : Bool
  dryRun : Bool
  projectPath : Path
  databaseUrl : Option String
  table : Option String
  deriving DecidableEq, Repr

inductive Setting where
  | model | namespaceName | suffix | resource | force | dryRun | projectPath | databaseUrl | table
  deriving DecidableEq, Repr

namespace Setting

/-- All fields in the order in which they are checked. -/
def all : List Setting :=
  [model, namespaceName, suffix, resource, force, dryRun, projectPath, databaseUrl, table]

def key : Setting → String
  | model => "model"
  | namespaceName => "namespace"
  | suffix => "suffix"
  | resource => "resource"
  | force => "force"
  | dryRun => "dry_run"
  | projectPath => "project_path"
  | databaseUrl => "database_url"
  | table => "table"

end Setting

namespace Settings

/-! ### Checks -/

/-- The model's name, trimmed. -/
def checkModel (s : String) : Except Issue String :=
  let s := Text.trim s.toList
  if Text.isIdentifier s then .ok (String.ofList s)
  else .error (.refused s!"'{String.ofList s}' is not a valid PHP class name.")

/-- Letters and digits, the underscore, and everything beyond ASCII. -/
def isSuffixChar (c : Char) : Bool := c.isAlphanum || c == '_' || 0x80 ≤ c.toNat

def checkSuffix (s : String) : Except Issue String :=
  let s := Text.trim s.toList
  if s.all isSuffixChar then .ok (String.ofList s)
  else .error (.refused s!"'{String.ofList s}' is not a valid class name suffix.")

def isSlash (c : Char) : Bool := c == '\\' || c == '/'

def segments : List Char → List (List Char)
  | [] => [[]]
  | c :: s =>
    if isSlash c then [] :: segments s
    else match segments s with
      | [] => [[c]]
      | p :: ps => (c :: p) :: ps

/-- Segments parted by slashes of either kind, which are stored as backslashes. -/
def checkNamespace (s : String) : Except Issue String :=
  let s := Text.dropTail isSlash ((Text.trim s.toList).dropWhile isSlash)
  if s.isEmpty then .error (.refused "Namespace must not be empty.")
  else match (segments s).find? (!Text.isIdentifier ·) with
    | some p => .error (.refused s!"'{String.ofList p}' is not a valid namespace segment.")
    | none => .ok (String.ofList (s.map fun c => if c == '/' then '\\' else c))

/-- A table's name, trimmed; a blank one counts as none. -/
def checkTable : Option String → Option String
  | none => none
  | some s => (some (String.ofList (Text.trim s.toList))).filter (· ≠ "")

def checkPath : Raw → Except Issue Path
  | .text s => .ok (Path.ofString s)
  | _ => .error .notPath

/-! ### Making and changing -/

def assign (c : Settings) (field : Setting) (r : Raw) : Except Issue Settings :=
  match field with
  | .model => do
    let s ← r.asNonEmpty
    return { c with model := ← checkModel s }
  | .namespaceName => do
    let s ← r.asText
    return { c with namespaceName := ← checkNamespace s }
  | .suffix => do
    let s ← r.asText
    return { c with suffix := ← checkSuffix s }
  | .resource => return { c with resource := ← r.asBool }
  | .force => return { c with force := ← r.asBool }
  | .dryRun => return { c with dryRun := ← r.asBool }
  | .projectPath => return { c with projectPath := ← checkPath r }
  | .databaseUrl => return { c with databaseUrl := ← r.asOptionalText }
  | .table => return { c with table := checkTable (← r.asOptionalText) }

def assignNamed (c : Settings) (name : String) (r : Raw) : Except FieldIssue Settings :=
  match Setting.all.find? (·.key == name) with
  | none => .error ⟨[name], .noAttribute name⟩
  | some field =>
    match c.assign field r with
    | .ok c => .ok c
    | .error e => .error ⟨[name], e⟩

def initial : Settings where
  model := ""
  namespaceName := "Entities"
  suffix := "Entity"
  resource := false
  force := false
  dryRun := false
  projectPath := Path.ofString "."
  databaseUrl := none
  table := none

/-- Assigns the given value of a field, or takes note of what is wrong. Only the model has to be
given. -/
def take (fields : List (String × Raw)) (s : Settings × List FieldIssue) (field : Setting) :
    Settings × List FieldIssue :=
  match fields.lookup field.key with
  | none => if field = .model then (s.1, s.2 ++ [⟨[field.key], .required⟩]) else s
  | some r =>
    match s.1.assign field r with
    | .ok c => (c, s.2)
    | .error e => (s.1, s.2 ++ [⟨[field.key], e⟩])

/-- Settings from raw values by field name, or everything that is wrong with them. -/
def ofRaw (fields : List (String × Raw)) : Except (List FieldIssue) Settings :=
  let (c, issues) := Setting.all.foldl (take fields) (initial, [])
  match issues ++ unknownFields (Setting.all.map Setting.key) fields with
  | [] => .ok c
  | issues => .error issues

/-! ### What follows from settings -/

def className (c : Settings) : String := c.model ++ c.suffix

def appNamespace : String := "App"

def appDirectory : String := "app"

def fullNamespace (c : Settings) : String := appNamespace ++ "\\" ++ c.namespaceName

def baseClass (c : Settings) : BaseClass := if c.resource then .resource else .data

def modelClass (c : Settings) : String := appNamespace ++ "\\Models\\" ++ c.model

def sourcePath (c : Settings) : Path :=
  ((c.projectPath.below appDirectory).below "Models").below (c.model ++ ".php")

/-- The directory of the generated class: one level per segment of the namespace. -/
def outputDirectory (c : Settings) : Path :=
  (segments c.namespaceName.toList).foldl (fun p s => p.below (String.ofList s))
    (c.projectPath.below appDirectory)

def outputPath (c : Settings) : Path := c.outputDirectory.below (c.className ++ ".php")

end Settings

end EloquentEntity

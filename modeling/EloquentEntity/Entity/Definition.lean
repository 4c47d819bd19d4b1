import EloquentEntity.ClassName
import EloquentEntity.Settings

/-!
Generated classes: their properties with types, and the imports that these need.
-/

namespace EloquentEntity

/-- A read-only property of a generated class. -/
structure EntityField where
  name : String
  type : String
  name_ne : name ≠ ""
  type_ne : type ≠ ""
  deriving DecidableEq, Repr

namespace EntityField

/-- The type as it is written in the class: of a class the last segment. -/
def writtenType (f : EntityField) : String :=
  if ClassName.isClass f.type then ClassName.short f.type else f.type

def importName (f : EntityField) : Option String :=
  if ClassName.isClass f.type then some (ClassName.bare f.type) else none

def describe (f : EntityField) : String := s!"<EntityField {f.writtenType} ${f.name}>"

def given (fields : List (String × Raw)) (key : String) (default : Option Raw) :
    Except FieldIssue { s : String // s ≠ "" } :=
  match (fields.lookup key).or default with
  | none => .error ⟨[key], .required⟩
  | some r =>
    match r.asNonEmpty with
    | .ok s => .ok s
    | .error e => .error ⟨[key], e⟩

def issues {α : Type} : Except FieldIssue α → List FieldIssue
  | .ok _ => []
  | .error e => [e]

/-- A field from raw values by name, or everything that is wrong with them. -/
def ofRaw (fields : List (String × Raw)) : Except (List FieldIssue) EntityField :=
  let name := given fields "name" none
  let type := given fields "type_name" (some (.text "string"))
  match name, type, unknownFields ["name", "type_name"] fields with
  | .ok n, .ok t, [] => .ok ⟨n, t, n.2, t.2⟩
  | n, t, unknown => .error (issues n ++ issues t ++ unknown)

/-- A field stays as it was made: whatever is assigned to it is refused. -/
def assign (_ : EntityField) (key : String) (_ : Raw) : Except FieldIssue EntityField :=
  .error ⟨[key], .frozen⟩

def make (name type : String) : Except (List FieldIssue) EntityField :=
  ofRaw [("name", .text name), ("type_name", .text type)]

end EntityField

/-- A generated class. -/
structure EntityDefinition where
  namespaceName : String
  className : String
  baseClass : BaseClass
  properties : List EntityField
  /-- The import lines. -/
  imports : List String
  namespaceName_ne : namespaceName ≠ ""
  className_ne : className ≠ ""
  deriving DecidableEq, Repr

namespace EntityDefinition

def propertyNames (d : EntityDefinition) : List String := d.properties.map (·.name)

/-! ### From raw values -/

def baseClassOf : Raw → Except Issue BaseClass
  | .text s => (BaseClass.ofName s).mapError fun _ => .notBaseClass
  | _ => .error .notBaseClass

def readList {α : Type} (key : String) (f : Raw → Except (List FieldIssue) α) (r : Raw) :
    Except (List FieldIssue) (List α) :=
  match r with
  | .list items =>
    let results := items.map f
    let faults := results.zipIdx.flatMap fun
      | (.error es, n) => es.map fun e => { e with place := key :: toString n :: e.place }
      | (.ok _, _) => []
    if faults.isEmpty then .ok (results.filterMap Except.toOption) else .error faults
  | _ => .error [⟨[key], .notList⟩]

def fieldOf : Raw → Except (List FieldIssue) EntityField
  | .object fields => EntityField.ofRaw fields
  | _ => .error [⟨[], .notField⟩]

def lineOf (r : Raw) : Except (List FieldIssue) String :=
  match r.asText with
  | .ok s => .ok s
  | .error e => .error [⟨[], e⟩]

def issues {α : Type} : Except (List FieldIssue) α → List FieldIssue
  | .ok _ => []
  | .error es => es

def keys : List String := ["namespace", "class_name", "base_class", "properties", "imports"]

/-- A definition from raw values by field name, or everything that is wrong with them. -/
def ofRaw (fields : List (String × Raw)) : Except (List FieldIssue) EntityDefinition :=
  let ns := EntityField.given fields "namespace" none
  let name := EntityField.given fields "class_name" none
  let base := (baseClassOf ((fields.lookup "base_class").getD (.text "Data"))).mapError
    fun e => [⟨["base_class"], e⟩]
  let properties := readList "properties" fieldOf ((fields.lookup "properties").getD (.list []))
  let imports := readList "imports" lineOf ((fields.lookup "imports").getD (.list []))
  match ns, name, base, properties, imports, unknownFields keys fields with
  | .ok ns, .ok name, .ok base, .ok ps, .ok is, [] => .ok ⟨ns, name, base, ps, is, ns.2, name.2⟩
  | ns, name, base, ps, is, unknown =>
    .error (EntityField.issues ns ++ EntityField.issues name ++ issues base ++ issues ps ++
      issues is ++ unknown)

/-! ### From columns -/

/-- Columns that the framework keeps itself. -/
def bookkeeping : List String := ["created_at", "updated_at", "deleted_at"]

/-- The type of a column; one without a type holds strings. -/
def columnType (types : OrderedMap String String) (column : String) : String :=
  ((types.get? column).filter (· ≠ "")).getD "string"

def fieldsOf (columns : List String) (types : OrderedMap String String) :
    Except (List FieldIssue) (List EntityField) :=
  (columns.filter fun c => !bookkeeping.contains c).mapM fun c =>
    EntityField.make c (columnType types c)

def importLines (fields : List EntityField) (base : BaseClass) : List String :=
  ClassName.useLines ((fields.filterMap (·.importName)) ++ [base.importName])

/-- The class for the columns of a table. -/
def build (ns className : String) (columns : List String) (types : OrderedMap String String)
    (base : BaseClass) : Except (List FieldIssue) EntityDefinition := do
  let fields ← fieldsOf columns types
  let ns' := EntityField.given [("namespace", .text ns)] "namespace" none
  let name := EntityField.given [("class_name", .text className)] "class_name" none
  match ns', name with
  | .ok n, .ok c => return ⟨n, c, base, fields, importLines fields base, n.2, c.2⟩
  | n, c => throw (EntityField.issues n ++ EntityField.issues c)

end EntityDefinition

end EloquentEntity

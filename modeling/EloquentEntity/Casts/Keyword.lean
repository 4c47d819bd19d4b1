import EloquentEntity.Casts.Declaration

/-!
The types that built-in casts and built-in return types stand for.
-/

namespace EloquentEntity

abbrev ColumnTypes := OrderedMap String String

namespace Casts

/-! ### Type names -/

def stringType : String := "string"
def intType : String := "int"
def floatType : String := "float"
def boolType : String := "bool"
def arrayType : String := "array"
def collectionType : String := "\\Illuminate\\Support\\Collection"
def dateType : String := "\\Illuminate\\Support\\Carbon"

/-! ### Tables -/

def keywordTypes : List (String × String) :=
  [("int", intType), ("integer", intType), ("real", floatType), ("float", floatType),
   ("double", floatType), ("bool", boolType), ("boolean", boolType), ("array", arrayType),
   ("json", arrayType), ("object", arrayType), ("collection", collectionType), ("date", dateType),
   ("datetime", dateType), ("immutable_date", dateType), ("immutable_datetime", dateType),
   ("timestamp", intType), ("decimal", stringType)]

def builtinTypes : List (String × String) :=
  [("int", intType), ("bool", boolType), ("boolean", boolType), ("float", floatType),
   ("double", floatType), ("string", stringType), ("array", arrayType)]

/-- The keyword of a descriptor: what stands before the first colon, trimmed and in lower case. -/
def keyword (descriptor : String) : String :=
  String.ofList (Text.lower (Text.trim (descriptor.toList.takeWhile (· != ':'))))

/-- The type of a built-in cast; an unknown one gives strings. So does an empty descriptor, since no
keyword is empty. -/
def keywordType (descriptor : Option String) : String :=
  match descriptor with
  | none => stringType
  | some d => (keywordTypes.lookup (keyword d)).getD stringType

def builtinType (name : String) : String :=
  (builtinTypes.lookup (String.ofList (Text.lower name.toList))).getD stringType

/-- The type of a descriptor, where `lookup` answers for classes, whose descriptors start with a
backslash. A class without an answer gives strings. -/
def typeOf {m : Type → Type} [Monad m] (lookup : String → m (Option String))
    (descriptor : Option String) : m String :=
  match descriptor with
  | none => pure stringType
  | some d =>
    if d.toList.head? = some '\\' then
      return ((← lookup d).filter (· ≠ "")).getD stringType
    else pure (keywordType d)

def columnTypes {m : Type → Type} [Monad m] (lookup : String → m (Option String))
    (casts : CastMap) : m ColumnTypes :=
  return OrderedMap.ofList (← casts.entries.mapM fun e => return (e.1, ← typeOf lookup e.2))

end Casts

end EloquentEntity

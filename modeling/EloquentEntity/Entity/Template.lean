import EloquentEntity.Entity.Definition
import EloquentEntity.Log

/-!
The source text of a generated class.

Class types are imported and written by their last segment; two types with the same last segment
are reported.
-/

namespace EloquentEntity.EntityDefinition

/-! ### Short names that clash -/

/-- Imported names by the short name that came first for them, and the clashes met so far. -/
structure ShortNames where
  taken : OrderedMap String String
  clashes : List (String × String × String)

/-- Takes a field's short name, or reports the name that has it. -/
def ShortNames.add (s : ShortNames) (f : EntityField) : ShortNames :=
  match f.importName with
  | none => s
  | some name =>
    match s.taken.get? f.writtenType with
    | none => { s with taken := s.taken.put f.writtenType name }
    | some other =>
      if other = name then s
      else { s with clashes := s.clashes ++ [(other, name, f.writtenType)] }

/-- The clashes in order: the import that has the short name, the other one, the short name. -/
def clashes (d : EntityDefinition) : List (String × String × String) :=
  (d.properties.foldl ShortNames.add ⟨∅, []⟩).clashes

def warnings (d : EntityDefinition) : List LogEntry :=
  d.clashes.map fun (a, b, short) =>
    .warning "entitygen.templates" s!"Types {a} and {b} share the short name {short} in {d.className}"

/-! ### Source text -/

def parameterLine (f : EntityField) : String :=
  "        public readonly " ++ f.writtenType ++ " $" ++ f.name

/-- The lines before the imports, the imports, and the class. Without properties an empty line
stands between the parentheses. -/
def renderedLines (d : EntityDefinition) : List String :=
  ["<?php", "", "declare(strict_types=1);", "", "namespace " ++ d.namespaceName ++ ";", ""] ++
    d.imports ++
    ["", "final class " ++ d.className ++ " extends " ++ d.baseClass.name, "\x7b",
      "    public function __construct(",
      ",\n".intercalate (d.properties.map parameterLine),
      "    ) \x7b", "    \x7d", "\x7d"]

def render (d : EntityDefinition) : String := "\n".intercalate d.renderedLines ++ "\n"

end EloquentEntity.EntityDefinition

import EloquentEntity.Casts.ReturnType
import EloquentEntity.Files.Tree
import EloquentEntity.Log
import EloquentEntity.Settings
import EloquentEntity.Syntax.Source

/-!
The types that the application's own cast classes produce.

What a class says about itself is found in its source file. A class that names another cast to
use is followed to that class. The resolver remembers every answer; a class that is met again
while it is being resolved has no type.
-/

namespace EloquentEntity.Casts

open Syntax

/-- What comes of asking for the type that a class produces: a type, none where it cannot be told,
or an error where the system does not answer for the class's source file. -/
abbrev Outcome := Except FileError (Option String)

/-- What a class's source says. -/
inductive Finding where
  /-- The type that the class produces, if it can be told. -/
  | type (t : Option String)
  | error (e : FileError)
  /-- The class to ask instead. -/
  | follow (target : String)
  deriving DecidableEq, Repr

/-! ### One class -/

/-- The source file of a class, which has to be one of the application's. -/
def sourcePath? (root : Path) (name : String) : Option Path :=
  let front := (Settings.appNamespace ++ "\\").toList
  let bare := (ClassName.bare name).toList
  if front.isPrefixOf bare then
    let below := (bare.drop front.length).map fun c => if c == '\\' then '/' else c
    some ((root.below Settings.appDirectory).below (String.ofList below ++ ".php"))
  else none

def speaker : String := "entitygen.custom_casts"

def importsLog (imports : Imports) : LogEntry :=
  .debug "entitygen.imports" s!"Collected {imports.size} import(s)"

/-- What the class declared first in a source says. -/
def findingOf (name : String) (declaration : Tree) (imports : Imports) :
    Finding × List LogEntry :=
  let names := interfaces declaration imports
  if names.contains attributesInterface then
    match declaration.method? "get" with
    | none => (.type none, [.debug speaker s!"{name} has no get() method"])
    | some m => (.type (returnType? m.declaredType? imports), [])
  else if names.contains castableInterface then
    match castUsing? declaration imports with
    | some target => (.follow target, [])
    | none => (.type none, [])
  else (.type none, [.debug speaker s!"{name} does not implement CastsAttributes"])

/-- What a class's source file says. A file that cannot be read leaves the class without a type. -/
def examineFile (files : FileTree) (name : String) (path : Path) : Finding × List LogEntry :=
  let silent := fun (text : String) => (Finding.type none, [LogEntry.debug speaker text])
  match files.isFile path with
  | .error e => (.error e, [])
  | .ok false => silent s!"Cast source {path} does not exist"
  | .ok true =>
    match files.read path with
    | .error e => silent s!"Cannot read cast source {path}: {e.message}"
    | .ok source =>
      match parse source with
      | none => silent s!"Cannot parse cast source {path}: Syntax error"
      | some root =>
        match root.firstClass? with
        | none => silent s!"No class declaration in {path}"
        | some declaration =>
          let imports := Imports.collect root
          let (finding, log) := findingOf name declaration imports
          (finding, importsLog imports :: log)

/-- What a class, named without a backslash in front, says about itself. -/
def examine (files : FileTree) (root : Path) (name : String) : Finding × List LogEntry :=
  match sourcePath? root name with
  | none => (.type none,
      [.debug speaker s!"{name} is outside the {Settings.appNamespace} namespace"])
  | some path => examineFile files name path

/-! ### The resolver -/

/-- The project that classes are looked for in, and the answers given so far. -/
structure Resolver where
  root : Path
  known : OrderedMap String (Option String)
  deriving DecidableEq, Repr

namespace Resolver

def new (root : Path) : Resolver := ⟨root, ∅⟩

/-- An answer, the answers known after it, and what there is to say about the way to it. -/
structure Answer where
  outcome : Outcome
  known : OrderedMap String (Option String)
  log : List LogEntry

/-- The answer that a class passes on. An error is no answer to be remembered. -/
def Answer.remember (a : Answer) (name : String) : Answer :=
  match a.outcome with
  | .error _ => a
  | .ok t =>
    let said := s!"Custom cast {name} resolved to " ++ t.getD "None"
    { a with known := a.known.put name t, log := a.log ++ [.debug speaker said] }

/-- Resolves a class while those of `active` are being resolved. -/
def resolveFrom (examine : String → Finding × List LogEntry) :
    Nat → List String → OrderedMap String (Option String) → String → Answer
  | 0, _, known, _ => ⟨.ok none, known, []⟩
  | fuel + 1, active, known, name =>
    let bare := ClassName.bare name
    match known.get? bare with
    | some t => ⟨.ok t, known, []⟩
    | none =>
      if active.contains bare then
        ⟨.ok none, known, [.debug speaker s!"Cast cycle detected at {bare}"]⟩
      else
        let (finding, log) := examine bare
        let inner : Answer := match finding with
          | .type t => ⟨.ok t, known, log⟩
          | .error e => ⟨.error e, known, log⟩
          | .follow target =>
            let a := resolveFrom examine fuel (bare :: active) known target
            { a with log := log ++ a.log }
        inner.remember bare

/-- The steps that a chain can take: each file names at most one further class. -/
def chainLimit (files : FileTree) : Nat := files.nodes.size + 2

def resolve (r : Resolver) (files : FileTree) (name : String) :
    Outcome × Resolver × List LogEntry :=
  let a := resolveFrom (examine files r.root) (chainLimit files) [] r.known name
  (a.outcome, { r with known := a.known }, a.log)

end Resolver

end EloquentEntity.Casts

import EloquentEntity.Text.Quoted

/-!
Paths in normal form: neither empty nor `.` components, and no slash at the end.

A component `..` stays, since what it names depends on the files. Exactly two slashes in front
are kept as they are, any other number of them counts as one.
-/

namespace EloquentEntity

inductive PathRoot where
  | relative
  | slash
  | twoSlashes
  deriving DecidableEq, Repr, Inhabited

structure Path where
  root : PathRoot
  parts : List String
  deriving DecidableEq, Repr, Inhabited

namespace Path

def splitSlashes : List Char → List (List Char)
  | [] => [[]]
  | '/' :: s => [] :: splitSlashes s
  | c :: s =>
    match splitSlashes s with
    | [] => [[c]]
    | p :: ps => (c :: p) :: ps

def rootOf (s : List Char) : PathRoot :=
  match (s.takeWhile (· == '/')).length with
  | 0 => .relative
  | 2 => .twoSlashes
  | _ => .slash

def ofString (s : String) : Path where
  root := rootOf s.toList
  parts := ((splitSlashes s.toList).map String.ofList).filter fun p => p ≠ "" ∧ p ≠ "."

def rootText : PathRoot → String
  | .relative => ""
  | .slash => "/"
  | .twoSlashes => "//"

instance : ToString Path where
  toString p :=
    if p.root = .relative ∧ p.parts = [] then "." else rootText p.root ++ "/".intercalate p.parts

def isAbsolute (p : Path) : Bool := p.root != .relative

/-- `q` below `p`; an absolute `q` stands for itself. -/
def join (p q : Path) : Path := if q.isAbsolute then q else ⟨p.root, p.parts ++ q.parts⟩

/-- One or more components below a path, written with slashes. -/
def below (p : Path) (s : String) : Path := p.join (ofString s)

def child (p : Path) (name : String) : Path := ⟨p.root, p.parts ++ [name]⟩

def parent (p : Path) : Path := ⟨p.root, p.parts.dropLast⟩

def fileName (p : Path) : String := p.parts.getLast?.getD ""

def stem (p : Path) : String :=
  let name := p.fileName.toList
  let extension := (name.reverse.takeWhile (· != '.')).length
  if extension = 0 ∨ name.length ≤ extension + 1 then String.ofList name
  else String.ofList (name.take (name.length - extension - 1))

/-- Components with each `..` taking away the component before it. -/
def collapse : List String → List String → List String
  | done, [] => done
  | done, p :: ps => if p = ".." then collapse done.dropLast ps else collapse (done ++ [p]) ps

/-- The absolute path that the text alone gives, read from the directory `here`. -/
def resolve (here p : Path) : Path :=
  let q := here.join p
  ⟨q.root, collapse [] q.parts⟩

/-- The same with one slash in front. -/
def canonical (here p : Path) : Path := { here.resolve p with root := .slash }

def quoted (p : Path) : String := String.ofList (Text.quoted (toString p).toList)

end Path

end EloquentEntity

import EloquentEntity.Files.Path
import EloquentEntity.OrderedMap
import EloquentEntity.Text.Line
import EloquentEntity.Text.Utf8

/-!
A tree of files and directories in memory, with the operations that a file system offers on it.

Names and paths have a greatest length; it is found out only where a name is looked up in a
directory, so that a path may be too long for one operation and lead nowhere for another. An
operation that fails leaves the tree as it was, save that directories which were made on the way to
one that cannot be made stay.
-/

namespace EloquentEntity

/-- What stands at a place of the tree. A database is a file that is known by its tables. -/
inductive FileNode where
  | directory
  | file (bytes : List UInt8)
  | database (tables : List (String × List String))
  deriving DecidableEq, Repr, Inhabited

def FileNode.isFile : FileNode → Bool
  | directory => false
  | _ => true

/-- The current directory, and what stands at each absolute place. -/
structure FileTree where
  current : List String
  nodes : OrderedMap (List String) FileNode
  deriving DecidableEq, Repr

inductive FileFault where
  | notFound
  | alreadyThere
  | notADirectory
  | isADirectory
  | nameTooLong
  /-- The path has a character in it that ends texts for the system. -/
  | nullCharacter
  deriving DecidableEq, Repr

/-- What there is to say of a fault about `subject`. -/
def FileFault.message (f : FileFault) (subject : String) : String :=
  match f with
  | notFound => numbered 2 "No such file or directory"
  | alreadyThere => numbered 17 "File exists"
  | notADirectory => numbered 20 "Not a directory"
  | isADirectory => numbered 21 "Is a directory"
  | nameTooLong => numbered 36 "File name too long"
  | nullCharacter => "embedded null byte"
where
  numbered (n : Nat) (text : String) : String := s!"[Errno {n}] {text}: {subject}"

/-- A fault and the paths, each between quotes, that it is about. -/
structure FileError where
  fault : FileFault
  subject : String
  deriving DecidableEq, Repr

def FileError.message (e : FileError) : String := e.fault.message e.subject

namespace FileTree

/-- A tree that holds its current directory and the directories above. -/
def start (current : List String) : FileTree where
  current := current
  nodes := OrderedMap.ofList ((List.range current.length).map fun n =>
    (current.take (n + 1), .directory))

/-- What stands at a place; at the top stands a directory. -/
def node? (t : FileTree) (place : List String) : Option FileNode :=
  if place = [] then some .directory else t.nodes.get? place

/-- The bytes that a name may have, and those that a path may have. -/
def nameLimit : Nat := 255

def pathLimit : Nat := 4095

/-- Checks what the system asks of a path before it looks anything up. -/
def checkPath (p : Path) : Except FileFault Unit :=
  let text := toString p
  if text.toList.contains '\x00' then .error .nullCharacter
  else if pathLimit < text.utf8ByteSize then .error .nameTooLong
  else .ok ()

/-- The place that components lead to from the directory `here`. All but the last name
directories. -/
def walk (t : FileTree) : List String → List String → Except FileFault (List String)
  | here, [] => .ok here
  | here, p :: ps =>
    if p = ".." then walk t here.dropLast ps
    else if nameLimit < p.utf8ByteSize then .error .nameTooLong
    else if ps = [] then .ok (here ++ [p])
    else match t.node? (here ++ [p]) with
      | some .directory => walk t (here ++ [p]) ps
      | some _ => .error .notADirectory
      | none => .error .notFound

def place (t : FileTree) (p : Path) : Except FileFault (List String) :=
  match checkPath p with
  | .error f => .error f
  | .ok () => t.walk (if p.isAbsolute then [] else t.current) p.parts

def at? (t : FileTree) (p : Path) : Option FileNode :=
  match t.place p with
  | .ok q => t.node? q
  | .error _ => none

def currentPath (t : FileTree) : Path := ⟨.slash, t.current⟩

def fault {α : Type} (f : FileFault) (p : Path) : Except FileError α := .error ⟨f, p.quoted⟩

/-- What a path leads to, asked of the system: it does not answer for what is too long. -/
def find? (t : FileTree) (p : Path) : Except FileError (Option FileNode) :=
  match t.place p with
  | .ok q => .ok (t.node? q)
  | .error .nameTooLong => fault .nameTooLong p
  | .error _ => .ok none

def isFile (t : FileTree) (p : Path) : Except FileError Bool :=
  (t.find? p).map fun n => n.any FileNode.isFile

def isDirectory (t : FileTree) (p : Path) : Except FileError Bool :=
  (t.find? p).map fun n => n == some .directory

/-! ### Reading -/

inductive ReadError where
  | file (e : FileError)
  | decode (e : Text.Utf8.DecodeError)
  deriving DecidableEq, Repr

def ReadError.message : ReadError → String
  | file e => e.message
  | decode e => e.message

def bytes (t : FileTree) (p : Path) : Except FileError (List UInt8) :=
  match t.place p with
  | .error f => fault f p
  | .ok q =>
    match t.node? q with
    | none => fault .notFound p
    | some .directory => fault .isADirectory p
    | some (.file bs) => .ok bs
    | some (.database _) => .ok (Text.Utf8.encode "SQLite format 3\x00".toList)

/-- The text of a file, with every line ended by a line feed. -/
def read (t : FileTree) (p : Path) : Except ReadError String :=
  match t.bytes p with
  | .error e => .error (.file e)
  | .ok bs =>
    match Text.Utf8.decode bs with
    | .error e => .error (.decode e)
    | .ok s => .ok (String.ofList (Text.universalNewlines s))

/-! ### Writing -/

def set (t : FileTree) (place : List String) (n : FileNode) : FileTree :=
  { t with nodes := t.nodes.put place n }

def makeOne (t : FileTree) (p : Path) : Except FileFault FileTree :=
  match t.place p with
  | .error f => .error f
  | .ok q => if (t.node? q).isSome then .error .alreadyThere else .ok (t.set q .directory)

/-- A directory that is there need not be made. -/
def settle (t : FileTree) (p : Path) (f : FileFault) : Except FileError Unit :=
  match t.isDirectory p with
  | .error e => .error e
  | .ok true => .ok ()
  | .ok false => fault f p

/-- Makes a directory, and those above it that are missing. `upper` holds the last components
first. -/
def makeUpTo (t : FileTree) (root : PathRoot) : List String → Except FileError Unit × FileTree
  | [] => (.ok (), t)
  | p :: upper =>
    let path : Path := ⟨root, (p :: upper).reverse⟩
    match t.makeOne path with
    | .ok t => (.ok (), t)
    | .error .notFound =>
      match makeUpTo t root upper with
      | (.error e, t) => (.error e, t)
      | (.ok (), t) =>
        match t.makeOne path with
        | .ok t => (.ok (), t)
        | .error .notFound => (fault .notFound path, t)
        | .error f => (t.settle path f, t)
    | .error f => (t.settle path f, t)

/-- Makes a directory, and those above it that are missing; one that exists stays as it is. With
the result comes the tree, which holds what was made before an error. -/
def makeDirectories (t : FileTree) (p : Path) : Except FileError Unit × FileTree :=
  t.makeUpTo p.root p.parts.reverse

/-- Checks that a file can stand at a place: below a directory, and not where one stands. -/
def checkPlace (t : FileTree) (place : List String) : Except FileFault Unit :=
  if t.node? place = some .directory then .error .isADirectory
  else match t.node? place.dropLast with
    | some .directory => .ok ()
    | some _ => .error .notADirectory
    | none => .error .notFound

def filePlace (t : FileTree) (p : Path) : Except FileFault (List String) :=
  match t.place p with
  | .error f => .error f
  | .ok q =>
    match t.checkPlace q with
    | .error f => .error f
    | .ok () => .ok q

/-- Puts a file, below directories that exist. -/
def replace (t : FileTree) (p : Path) (n : FileNode) : Except FileError FileTree :=
  match t.filePlace p with
  | .error f => fault f p
  | .ok q => .ok (t.set q n)

/-- Makes a file where nothing stands yet. -/
def create (t : FileTree) (p : Path) (bytes : List UInt8) : Except FileError FileTree :=
  match t.filePlace p with
  | .error f => fault f p
  | .ok q => if (t.node? q).isSome then fault .alreadyThere p else .ok (t.set q (.file bytes))

/-- No name in the tree has more characters. -/
def longestName (t : FileTree) : Nat :=
  (t.nodes.keys.map fun q => (q.getLast?.getD "").length).foldr max 0

/-- This place, or one beside it where nothing stands. -/
def freePlace (t : FileTree) (place : List String) : List String :=
  if (t.node? place).isNone then place
  else place.dropLast ++ [String.ofList (List.replicate (t.longestName + 1) '_')]

/-- Makes a file that no other gives way to. Where something stands at the end of the path already,
the file takes another place in the directory. -/
def createFree (t : FileTree) (p : Path) (bytes : List UInt8) :
    Except FileError (List String × FileTree) :=
  match t.place p with
  | .error f => fault f p
  | .ok q => .ok (t.freePlace q, t.set (t.freePlace q) (.file bytes))

/-- Gives the file at a place another path; a file that has it already goes. The path `source` is
named by the error. -/
def rename (t : FileTree) (place : List String) (source target : Path) :
    Except FileError FileTree :=
  let fault := fun f => .error ⟨f, s!"{source.quoted} -> {target.quoted}"⟩
  match t.node? place with
  | none => fault .notFound
  | some .directory => fault .isADirectory
  | some n =>
    match t.filePlace target with
    | .error f => fault f
    | .ok q => .ok { t with nodes := (t.nodes.erase place).put q n }

/-- Puts a file, below directories that are made where they are missing. With the result comes the
tree, as for directories. -/
def put (t : FileTree) (p : Path) (n : FileNode) : Except FileError Unit × FileTree :=
  match t.makeDirectories p.parent with
  | (.error e, t) => (.error e, t)
  | (.ok (), t) =>
    match t.replace p n with
    | .error e => (.error e, t)
    | .ok t => (.ok (), t)

def remove (t : FileTree) (place : List String) : FileTree :=
  { t with nodes := t.nodes.erase place }

def delete (t : FileTree) (p : Path) : Except FileError FileTree :=
  match t.place p with
  | .error f => fault f p
  | .ok q =>
    match t.node? q with
    | none => fault .notFound p
    | some .directory => fault .isADirectory p
    | some _ => .ok (t.remove q)

/-- The relative paths, in order, of the files below a directory of the current one. -/
def filesBelow (t : FileTree) (directory : String) : List String :=
  let above := t.current ++ [directory]
  let found := t.nodes.entries.filter fun e => above.isPrefixOf e.1 && e.2.isFile
  (found.map fun e => "/".intercalate (e.1.drop t.current.length)).mergeSort

end FileTree

end EloquentEntity

import EloquentEntity.CommandLine.Run
import EloquentEntity.Database.FileFormat

/-!
The program on the file system.

What a run can read is taken into memory: the application's directory, the environment file and
the database file. After the run the files that it changed are written.
-/

namespace EloquentEntity.Main

/-! ### Loading -/

def maxDepth : Nat := 64

def nodeOf (b : ByteArray) : FileNode :=
  match Database.FileFormat.tables? b with
  | some tables => .database tables
  | none => .file b.toList

def addDirectory (t : FileTree) (p : Path) : FileTree := (t.makeDirectories p).2

/-- Takes a file into memory; one that cannot be read is left out. -/
def loadFile (t : FileTree) (p : Path) : IO FileTree := do
  try
    let b ← IO.FS.readBinFile (toString p)
    return (t.put p (nodeOf b)).2
  catch _ => return t

def isDirectory (p : Path) : IO Bool := do
  try return ← (← IO.FS.realPath (toString p)).isDir
  catch _ => return false

def namesIn (p : Path) : IO (List String) := do
  try return ((← (← IO.FS.realPath (toString p)).readDir).map (·.fileName)).toList
  catch _ => return []

/-- Takes a file, or a directory with all that is in it, into memory. -/
def load : Nat → FileTree → Path → IO FileTree
  | 0, t, _ => return t
  | depth + 1, t, p => do
    if ← isDirectory p then
      (← namesIn p).foldlM (fun t name => load depth t (p.below name)) (addDirectory t p)
    else loadFile t p

def loadEmpty (t : FileTree) (p : Path) : IO FileTree :=
  return if ← isDirectory p then addDirectory t p else t

def databaseFile? (t : FileTree) (c : Settings) (process : Database.Environment) : Option Path :=
  match Database.choose t c.databaseUrl process process c.projectPath with
  | (.ok (some url), _) =>
    match Database.engineOf t.currentPath url with
    | .ok (.file p) => some p
    | _ => none
  | _ => none

def loadProject (t : FileTree) (c : Settings) (process : Database.Environment) : IO FileTree := do
  let t ← loadEmpty t c.projectPath
  let t ← load maxDepth t (c.projectPath.below Settings.appDirectory)
  let t ← loadFile t (c.projectPath.below ".env")
  match databaseFile? t c process with
  | none => return t
  | some p => load 1 (← loadEmpty t p.parent) p

def processVariables : IO Database.Environment := do
  let b ← try IO.FS.readBinFile "/proc/self/environ" catch _ => pure .empty
  let text := String.ofList (Text.Utf8.decodeLossy b.toList)
  return (text.splitOn "\x00").map fun v =>
    (String.ofList (v.toList.takeWhile (· != '=')),
      String.ofList ((v.toList.dropWhile (· != '=')).drop 1))

/-! ### Saving -/

/-- Writes a file by way of a temporary one. -/
def saveFile (here : Path) (mark : Mark) (p : Path) (bytes : List UInt8) : IO Unit := do
  let temporary := toString (Store.temporaryPath here mark p)
  IO.FS.writeBinFile temporary ⟨bytes.toArray⟩
  IO.FS.rename temporary (toString p)

def save (before after : FileTree) (mark : Mark) : IO Unit :=
  after.nodes.entries.forM fun (place, node) => do
    let p : Path := ⟨.slash, place⟩
    if before.nodes.get? place ≠ some node then
      match node with
      | .directory => IO.FS.createDirAll (toString p)
      | .file bytes => saveFile after.currentPath mark p bytes
      | .database _ => pure ()

def run (words : List String) (here : Path) : IO UInt32 := do
  let process ← processVariables
  let start := FileTree.start here.parts
  let files ← match CommandLine.readArguments words with
    | .error _ => pure start
    | .ok a =>
      match Settings.ofRaw (a.fields here) with
      | .error _ => pure start
      | .ok c => loadProject start c process
  let mark := Mark.ofNat (← IO.rand 0 99999999999)
  let (result, s) := (CommandLine.run words process EloquentEntity.Report.seconds).on ⟨files, [], mark⟩
  try save files s.files mark
  catch e =>
    IO.eprintln (toString e)
    return Phase.write.exitCode.toUInt32
  match result with
  | .ok o =>
    IO.print o.output
    IO.eprint o.errors
    return o.exitCode.toUInt32
  | .error fault =>
    IO.eprintln fault.message
    return 1

end EloquentEntity.Main

def main (words : List String) : IO UInt32 := do
  EloquentEntity.Main.run words (EloquentEntity.Path.ofString (toString (← IO.currentDir)))

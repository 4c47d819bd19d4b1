import EloquentEntity.Session

/-!
Writing files for good, or only on trial.

A text replaces a file at once: it goes to a temporary file in the same directory, which is then
given the file's name. In a dry run the texts are kept aside and the files stay as they are.
-/

namespace EloquentEntity

structure Store where
  dryRun : Bool
  /-- The texts of a dry run by path. -/
  pending : OrderedMap Path String
  bytesWritten : Nat
  deriving DecidableEq, Repr

namespace Store

open Procedure

def new (dryRun : Bool) : Store := ⟨dryRun, ∅, 0⟩

def speaker : String := "entitygen.filestore"

/-! ### For good -/

def ensureDirectory (p : Path) : Procedure FileError Unit := do
  let there ← Procedure.ofExcept ((← files).isDirectory p)
  if !there then note (.debug "entitygen.utils" s!"Creating directory {p}")
  alter (·.makeDirectories p)

def temporaryName (mark : Mark) (p : Path) : String := "." ++ p.stem ++ "." ++ mark.text ++ ".tmp"

/-- The path of a temporary file beside the file at `p`, where paths are read from `here`. -/
def temporaryPath (here : Path) (mark : Mark) (p : Path) : Path :=
  (here.resolve p.parent).child (temporaryName mark p)

def makeTemporary (temporary : Path) (bytes : List UInt8) : Procedure FileError (List String) := do
  let (place, t) ← Procedure.ofExcept ((← files).createFree temporary bytes)
  change fun _ => .ok t
  return place

/-- Puts bytes in the place of a file, in a directory that exists. The temporary file does not
stay. -/
def swapIn (p : Path) (bytes : List UInt8) : Procedure FileError Unit := do
  let temporary := temporaryPath (← files).currentPath (← get).mark p
  let place ← makeTemporary temporary bytes
  match ← (change (·.rename place temporary p)).attempt with
  | .error e =>
    -- what is refused before the system is asked is not cleaned up after
    if e.fault ≠ .nullCharacter then change fun t => .ok (t.remove place)
    throw e
  | .ok () => return ()

def replaceText (p : Path) (text : String) : Procedure FileError Nat := do
  ensureDirectory p.parent
  let bytes := Text.Utf8.encode text.toList
  swapIn p bytes
  note (.debug "entitygen.utils" s!"{p}: {bytes.length} bytes")
  return bytes.length

/-! ### Either way -/

def makeDirectories (s : Store) (p : Path) : Procedure FileError Unit :=
  if s.dryRun then note (.debug speaker s!"Dry run: would create {p}") else ensureDirectory p

def write (s : Store) (p : Path) (text : String) : Procedure FileError (Nat × Store) := do
  if s.dryRun then
    let size := (Text.Utf8.encode text.toList).length
    note (.info speaker s!"Dry run: {size} bytes not written to {p}")
    return (size, { s with pending := s.pending.put p text })
  else
    let size ← replaceText p text
    return (size, { s with bytesWritten := s.bytesWritten + size })

end Store

end EloquentEntity

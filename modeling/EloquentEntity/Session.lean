import EloquentEntity.Files.Tree
import EloquentEntity.Log

/-!
What a run works on, and the procedures that it consists of.

A procedure that fails leaves behind what it had done until then: files that it made stay, and
its log tells what happened.
-/

namespace EloquentEntity

def Mark.alphabet : List Char := "abcdefghijklmnopqrstuvwxyz0123456789_".toList

/-- Eight characters that make the name of a temporary file different from all others. -/
structure Mark where
  characters : List Char
  length_eq : characters.length = 8
  mem_alphabet : ∀ c ∈ characters, c ∈ Mark.alphabet
  deriving DecidableEq, Repr

namespace Mark

def text (m : Mark) : String := String.ofList m.characters

def ofNat (n : Nat) : Mark where
  characters := (List.range 8).map fun i =>
    alphabet.get ⟨n / alphabet.length.pow i % alphabet.length, Nat.mod_lt _ (by decide +kernel)⟩
  length_eq := by rw [List.length_map, List.length_range]
  mem_alphabet := by
    intro c hc
    obtain ⟨i, -, rfl⟩ := List.mem_map.mp hc
    exact List.get_mem _ _

end Mark

structure Session where
  files : FileTree
  log : List LogEntry
  /-- The mark of the next temporary file. -/
  mark : Mark
  deriving DecidableEq, Repr

abbrev Procedure (ε α : Type) := ExceptT ε (StateM Session) α

namespace Procedure

variable {ε ε' α β : Type}

def noteAll (es : List LogEntry) : Procedure ε Unit :=
  modify fun s => { s with log := s.log ++ es }

def note (e : LogEntry) : Procedure ε Unit := noteAll [e]

def files : Procedure ε FileTree := return (← get).files

/-- Changes the files, or fails and leaves them as they are. -/
def change (f : FileTree → Except ε FileTree) : Procedure ε Unit := do
  match f (← files) with
  | .ok t => modify fun s => { s with files := t }
  | .error e => throw e

/-- Changes the files. What is done to them before an error stays. -/
def alter (f : FileTree → Except ε Unit × FileTree) : Procedure ε Unit :=
  ExceptT.mk fun s => ((f s.files).1, { s with files := (f s.files).2 })

def ofExcept (r : Except ε α) : Procedure ε α :=
  match r with
  | .ok a => return a
  | .error e => throw e

/-- A procedure with its error as it is seen from further out. -/
def mapError (f : ε → ε') (p : Procedure ε α) : Procedure ε' α :=
  ExceptT.mk (return (← p.run).mapError f)

/-- A procedure with its error as a result. -/
def attempt (p : Procedure ε α) : Procedure ε' (Except ε α) := ExceptT.mk (return .ok (← p.run))

/-- A procedure under a name. The log says when it has ended, well or not. -/
def timed (name : String) (p : Procedure ε α) : Procedure ε α := ExceptT.mk do
  let r ← p.run
  modify fun s => { s with log := s.log ++ [.took name] }
  return r

/-- What comes of a procedure, and the session after it. -/
def on (s : Session) (p : Procedure ε α) : Except ε α × Session := (p.run.run s).run

/-! ### What comes of each -/

@[simp] theorem on_pure (a : α) (s : Session) : (pure a : Procedure ε α).on s = (.ok a, s) := rfl

@[simp] theorem on_throw (e : ε) (s : Session) :
    (throw e : Procedure ε α).on s = (.error e, s) := rfl

@[simp] theorem on_bind (p : Procedure ε α) (f : α → Procedure ε β) (s : Session) :
    (p >>= f).on s =
      match p.on s with
      | (.ok a, s) => (f a).on s
      | (.error e, s) => (.error e, s) := by
  simp only [on, ExceptT.run_bind, StateT.run_bind]
  rcases (p.run.run s : Id _) with ⟨r | r, s'⟩ <;> rfl

@[simp] theorem on_noteAll (es : List LogEntry) (s : Session) :
    (noteAll es : Procedure ε Unit).on s = (.ok (), { s with log := s.log ++ es }) := rfl

@[simp] theorem on_note (e : LogEntry) (s : Session) :
    (note e : Procedure ε Unit).on s = (.ok (), { s with log := s.log ++ [e] }) := rfl

@[simp] theorem on_files (s : Session) :
    (files : Procedure ε FileTree).on s = (.ok s.files, s) := rfl

@[simp] theorem on_change (f : FileTree → Except ε FileTree) (s : Session) :
    (change f).on s =
      match f s.files with
      | .ok t => (.ok (), { s with files := t })
      | .error e => (.error e, s) := by
  rw [change, on_bind, on_files]
  cases h : f s.files <;> simp only [h] <;> rfl

@[simp] theorem on_alter (f : FileTree → Except ε Unit × FileTree) (s : Session) :
    (alter f).on s = ((f s.files).1, { s with files := (f s.files).2 }) := rfl

@[simp] theorem on_ofExcept (r : Except ε α) (s : Session) : (ofExcept r).on s = (r, s) := by
  cases r <;> rfl

@[simp] theorem on_mapError (f : ε → ε') (p : Procedure ε α) (s : Session) :
    (mapError f p).on s = ((p.on s).1.mapError f, (p.on s).2) := rfl

@[simp] theorem on_attempt (p : Procedure ε α) (s : Session) :
    (attempt p : Procedure ε' (Except ε α)).on s = (.ok (p.on s).1, (p.on s).2) := rfl

@[simp] theorem on_timed (name : String) (p : Procedure ε α) (s : Session) :
    (timed name p).on s =
      ((p.on s).1, { (p.on s).2 with log := (p.on s).2.log ++ [.took name] }) := rfl

end Procedure

end EloquentEntity

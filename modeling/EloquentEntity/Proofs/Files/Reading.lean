import EloquentEntity.Files.Tree
import Mathlib.Tactic.Common

/-!
What a file gives to read depends on what stands at its place alone; the path by which it is
reached shows in messages only.
-/

namespace EloquentEntity

def FileNode.text? : FileNode → Option String
  | .directory => none
  | .file bytes => (Text.Utf8.decode bytes).toOption.map fun s =>
      String.ofList (Text.universalNewlines s)
  | .database _ =>
      (Text.Utf8.decode (Text.Utf8.encode "SQLite format 3\x00".toList)).toOption.map fun s =>
        String.ofList (Text.universalNewlines s)

namespace FileTree

variable {t : FileTree} {p : Path} {q : List String}

def place? (t : FileTree) (p : Path) : Option (List String) := (t.place p).toOption

lemma place?_eq_some_iff : t.place? p = some q ↔ t.place p = .ok q := by
  rw [place?]
  cases t.place p <;> simp [Except.toOption]

lemma at?_eq (t : FileTree) (p : Path) : t.at? p = (t.place? p).bind t.node? := by
  rw [at?, place?]
  cases t.place p <;> rfl

/-- The system does not answer for a path that is too long, or that leads through directories to a
name that is. -/
def Refuses (t : FileTree) (p : Path) : Prop := t.place p = .error .nameTooLong

instance (t : FileTree) (p : Path) : Decidable (t.Refuses p) := inferInstanceAs (Decidable (_ = _))

lemma Refuses.at?_eq (h : t.Refuses p) : t.at? p = none := by
  rw [at?, h]

lemma find?_of_refuses (h : t.Refuses p) : t.find? p = fault .nameTooLong p := by
  rw [find?, h]

lemma find?_of_not_refuses (h : ¬t.Refuses p) : t.find? p = .ok (t.at? p) := by
  rw [find?, at?]
  rcases hp : t.place p with (_ | _ | _ | _ | _ | _) | q
  case error.nameTooLong => exact absurd hp h
  all_goals rfl

lemma isFile_of_refuses (h : t.Refuses p) : t.isFile p = fault .nameTooLong p := by
  rw [isFile, find?_of_refuses h]
  rfl

lemma isFile_of_not_refuses (h : ¬t.Refuses p) :
    t.isFile p = .ok ((t.at? p).any FileNode.isFile) := by
  rw [isFile, find?_of_not_refuses h]
  rfl

lemma isFile_eq_ok_iff {b : Bool} :
    t.isFile p = .ok b ↔ ¬t.Refuses p ∧ (t.at? p).any FileNode.isFile = b := by
  by_cases h : t.Refuses p
  · simp [isFile_of_refuses h, h, fault]
  · simp [isFile_of_not_refuses h, h]

lemma isFile_eq_true_iff : t.isFile p = .ok true ↔ (t.at? p).any FileNode.isFile = true := by
  rw [isFile_eq_ok_iff, and_iff_right_of_imp]
  intro hfile h
  rw [h.at?_eq] at hfile
  cases hfile

lemma toOption_read (t : FileTree) (p : Path) :
    (t.read p).toOption = ((t.place? p).bind t.node?).bind FileNode.text? := by
  rw [place?, read, bytes]
  rcases t.place p with f | q
  · rfl
  · simp only [Except.toOption, Option.bind_some]
    rcases t.node? q with _ | (_ | bs | ts)
    · rfl
    · rfl
    · simp only [FileNode.text?, Option.bind_some]
      cases Text.Utf8.decode bs <;> rfl
    · simp only [FileNode.text?, Option.bind_some]
      cases Text.Utf8.decode (Text.Utf8.encode "SQLite format 3\x00".toList) <;> rfl

def filePlaces (t : FileTree) : List (List String) :=
  (t.nodes.entries.filter (·.2.isFile)).map Prod.fst

lemma mem_filePlaces {n : FileNode} (h : t.node? q = some n) (hn : n.isFile) :
    q ∈ t.filePlaces := by
  rw [node?] at h
  split at h
  · obtain rfl := Option.some.inj h
    exact absurd hn (by simp [FileNode.isFile])
  · rw [OrderedMap.get?, Option.map_eq_some_iff] at h
    obtain ⟨e, he, rfl⟩ := h
    have hq : e.1 = q := by simpa using List.find?_some he
    exact hq ▸ List.mem_map_of_mem (List.mem_filter.mpr ⟨List.mem_of_find?_eq_some he, hn⟩)

lemma length_filePlaces_le (t : FileTree) : t.filePlaces.length ≤ t.nodes.size := by
  rw [filePlaces, List.length_map, OrderedMap.size]
  exact List.length_filter_le ..

end FileTree

end EloquentEntity

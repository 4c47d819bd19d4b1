import EloquentEntity.Database.Columns
import EloquentEntity.Proofs.Session

/-!
What reading columns from a database does to the files: at most a missing database file is made.
-/

namespace EloquentEntity.Database

open Procedure

variable {t t' : FileTree} {tables : List Table} {I : FileTree → Prop}

lemma leavesFiles_shownUrl (url : String) : LeavesFiles (shownUrl url) := .mapError _ (.ofExcept _)

lemma leavesFiles_engineFor (url : String) : LeavesFiles (engineFor url) := by
  refine .bind .files fun t => ?_
  rcases engineOf t.currentPath url with (fault | e | _) | engine
  · exact .bind (leavesFiles_shownUrl url) fun _ => .throw _
  · exact .throw _
  · exact .throw _
  · exact .pure _

lemma open_eq_ok {engine : Engine} (h : engine.open t = .ok (tables, t')) :
    t' = t ∨ ∃ path, t.create path [] = .ok t' := by
  cases engine with
  | memory =>
    cases h
    exact .inl rfl
  | file path =>
    rw [Engine.open, openFile] at h
    split at h
    · cases h
    split at h
    · cases h
      exact .inl rfl
    · cases h
      exact .inl rfl
    · cases h
    · cases h
    · split at h
      · next hcreate =>
        cases h
        exact .inr ⟨path, hcreate⟩
      · cases h

lemma openFor_eq_ok {table : String} {engine : Engine}
    (h : openFor table engine t = .ok (tables, t')) : t' = t ∨ ∃ path, t.create path [] = .ok t' := by
  rw [openFor] at h
  split at h
  · cases h
  · rcases hopen : engine.open t with fault | r
    · rw [hopen] at h
      cases h
    · rw [hopen] at h
      obtain rfl := Except.ok.inj h
      exact open_eq_ok hopen

lemma keeps_readColumns (hI : ∀ t t' path, I t → t.create path [] = .ok t' → I t')
    (engine : Engine) (table : String) : Keeps I (readColumns engine table) := by
  intro s hs
  rw [readColumns, on_bind, on_files]
  dsimp only
  rw [on_bind, on_ofExcept]
  rcases hopen : openFor table engine s.files with e | ⟨tables, t'⟩
  · exact hs
  · have ht' : I t' := by
      rcases openFor_eq_ok hopen with rfl | ⟨path, hcreate⟩
      · exact hs
      · exact hI _ _ path hs hcreate
    have hrest : LeavesFiles (do
        let columns ← (ofExcept (columnsIn tables table)).mapError ColumnError.schema
        note (.info speaker s!"Table {table} has {columns.length} column(s)")
        return columns) :=
      .bind (.mapError _ (.ofExcept _)) fun _ => .bind (.note _) fun _ => .pure _
    dsimp only
    rw [on_bind, on_change]
    exact hrest.keeps I _ ht'

/-- What is kept when a missing file is made is kept when columns are read. -/
lemma keeps_columns (hI : ∀ t t' path, I t → t.create path [] = .ok t' → I t')
    (url table : String) : Keeps I ((TableSource.url url).columns table) :=
  .bind ((leavesFiles_engineFor url).keeps I) fun engine => keeps_readColumns hI engine table

end EloquentEntity.Database

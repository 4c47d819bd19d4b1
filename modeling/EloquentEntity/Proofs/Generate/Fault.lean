import EloquentEntity.Proofs.Casts.Resolver
import EloquentEntity.Proofs.Database.Columns
import EloquentEntity.Proofs.Entity.Definition
import EloquentEntity.Proofs.Generate.Steps

/-!
What makes a run end with a fault.

Each step turns what can go wrong in it into a refusal. No provision is made for a database that
cannot be named, because of its port, its driver, its path or the environment file, for a file that
the system does not answer for, and for a column without a name.
-/

namespace EloquentEntity

/-! ### Naming the database -/

namespace DatabaseUrl

end DatabaseUrl

namespace Database

open Procedure

variable {url name : String} {e : DatabaseUrl.PortError} {here : Path} {t : FileTree}
  {s s' : Session}

lemma columnsOf?_of_columnsIn {tables : List Table} {columns : List String}
    (h : columnsIn tables name = .ok columns) : columnsOf? tables name = some columns := by
  rw [columnsIn] at h
  split at h
  · cases h
  · split at h
    · cases h
    · cases h
      assumption

/-- Once a database is named, reading it is refused or gives the columns of a table, unless no
system takes the path of its file. -/
lemma readColumns_cases (engine : Engine) (table : String) (s : Session) :
    (∃ e, ((readColumns engine table).on s).1 = .error (.schema e)) ∨
      (engine.hasNull = true ∧
        ((readColumns engine table).on s).1 = .error (.fault .nullCharacter)) ∨
      ∃ tables t columns, engine.open s.files = .ok (tables, t) ∧
        columnsOf? tables table = some columns ∧
        ((readColumns engine table).on s).1 = .ok columns := by
  rw [readColumns, on_bind, on_files]
  dsimp only
  rw [on_bind, on_ofExcept, openFor]
  by_cases hnull : engine.hasNull = true
  · rw [if_pos hnull]
    exact .inr (.inl ⟨hnull, rfl⟩)
  · rw [if_neg hnull]
    rcases engine.open s.files with fault | ⟨tables, t⟩
    · exact .inl ⟨_, rfl⟩
    · simp only [Except.mapError]
      rw [on_bind, on_change]
      dsimp only
      rw [on_bind, on_mapError, on_ofExcept]
      rcases hcolumns : columnsIn tables table with e | columns
      · exact .inl ⟨_, rfl⟩
      · exact .inr (.inr ⟨tables, t, columns, rfl, columnsOf?_of_columnsIn hcolumns, rfl⟩)

def tablesOf : FileNode → List Table
  | .database tables => tables
  | _ => []

/-- A database of the project has a table with a column that has no name. -/
def HasNameless (t : FileTree) : Prop :=
  ∃ e ∈ t.nodes.entries, ∃ table ∈ tablesOf e.2, "" ∈ table.2

instance (t : FileTree) : Decidable (HasNameless t) :=
  inferInstanceAs (Decidable (∃ e ∈ t.nodes.entries, ∃ table ∈ tablesOf e.2, "" ∈ table.2))

lemma mem_of_columnsOf? {tables : List Table} {table : String} {columns : List String}
    (h : columnsOf? tables table = some columns) :
    ∃ name, (name, columns) ∈ tables ∨ (name, columns) ∈ catalogues := by
  rw [columnsOf?, Option.map_eq_some_iff] at h
  obtain ⟨⟨name, columns'⟩, hfind, rfl⟩ := h
  exact ⟨name, List.mem_append.mp (List.mem_of_find?_eq_some hfind)⟩

/-- Tables that are read are those of a database node, or there are none. -/
lemma mem_of_open {engine : Engine} {t' : FileTree} {tables : List Table} {table : Table}
    (h : engine.open t = .ok (tables, t')) (hm : table ∈ tables) :
    ∃ e ∈ t.nodes.entries, tablesOf e.2 = tables := by
  cases engine with
  | memory =>
    cases h
    cases hm
  | file path =>
    rw [Engine.open, openFile] at h
    split at h
    · cases h
    split at h
    · next hat =>
      cases h
      rw [FileTree.at?_eq] at hat
      obtain ⟨q, -, hq⟩ := Option.bind_eq_some_iff.mp hat
      have hne : q ≠ [] := by
        rintro rfl
        rw [FileTree.node?_nil] at hq
        cases hq
      rw [FileTree.node?_of_ne hne, OrderedMap.get?_eq_some_iff] at hq
      exact ⟨_, hq, rfl⟩
    · cases h
      cases hm
    · cases h
    · cases h
    · split at h
      · cases h
        cases hm
      · cases h

lemma hasNameless_of_readColumns {engine : Engine} {table : String} {columns : List String}
    (h : (readColumns engine table).on s = (.ok columns, s')) (hm : "" ∈ columns) :
    HasNameless s.files := by
  have hcases := readColumns_cases engine table s
  rw [h] at hcases
  obtain ⟨e, he⟩ | ⟨-, he⟩ | ⟨tables, t, columns', hopen, hcolumns, hok⟩ := hcases
  · cases he
  · cases he
  · cases hok
    obtain ⟨name, hname | hname⟩ := mem_of_columnsOf? hcolumns
    · obtain ⟨e, he, rfl⟩ := mem_of_open hopen hname
      exact ⟨e, he, _, hname, hm⟩
    · have hnone : ∀ table ∈ catalogues, "" ∉ table.2 := by decide
      exact absurd hm (hnone _ hname)

lemma hasNameless_of_columns {table : String} {columns : List String}
    (h : ((TableSource.url url).columns table).on s = (.ok columns, s')) (hm : "" ∈ columns) :
    HasNameless s.files := by
  obtain ⟨engine, s₁, hengine, h⟩ := on_bind_eq_ok h
  rw [← (leavesFiles_engineFor url).files_eq hengine]
  exact hasNameless_of_readColumns h hm

end Database

/-! ### A run on the project's database -/

namespace EntityDefinition

variable {columns : List String} {types : OrderedMap String String} {ns name : String}
  {base : BaseClass} {issues : List FieldIssue}

end EntityDefinition

namespace Settings

variable {c : Settings}

lemma Checked.className_ne (hc : c.Checked) : c.className ≠ "" := by
  intro h
  have := congrArg String.toList h
  obtain ⟨-, d, r, hd, -⟩ := Text.plain_of_isIdentifier hc.model
  simp [className, hd] at this

end Settings

namespace Generate

open Procedure Database

variable {c : Settings} {process : Environment} {s s' : Session} {f : Fault} {t : FileTree}

/-- The URL of a project's database, before it is looked at. -/
def chosenUrl (c : Settings) (process : Environment) (t : FileTree) :
    Except ChoiceError (Option String) :=
  (choose t c.databaseUrl process process c.projectPath).1

/-- The URL that was chosen is used if there is one. -/
lemma on_databaseUrl (c : Settings) (process : Environment) (s : Session) :
    ∃ log, (databaseUrl c process).on s =
      (match chosenUrl c process s.files with
        | .error e => .error (.ofChoiceError e)
        | .ok none => .error (.refused (.schema .notConfigured))
        | .ok (some url) =>
          if url = "" then .error (.refused (.schema .notConfigured)) else .ok url,
        { s with log := log }) := by
  refine ⟨s.log ++ (choose s.files c.databaseUrl process process c.projectPath).2, ?_⟩
  rw [databaseUrl, chosenUrl, on_bind, on_files]
  dsimp only
  rcases choose s.files c.databaseUrl process process c.projectPath with ⟨e | _ | url, log⟩
  · rfl
  · rfl
  · by_cases hurl : url = ""
    · subst hurl
      rfl
    · simp [hurl, Except.mapError]

lemma hasNameless_of_columnsOfProject {table : String} {columns : List String}
    (h : (columnsOfProject c process table).on s = (.ok columns, s')) (hm : "" ∈ columns) :
    HasNameless s.files := by
  obtain ⟨url, s₁, hurl, h⟩ := on_bind_eq_ok h
  obtain ⟨shown, s₂, hshown, h⟩ := on_bind_eq_ok h
  obtain ⟨log, hs⟩ := on_databaseUrl c process s
  have hs₁ : s₁.files = s.files := by
    rw [hurl] at hs
    obtain ⟨-, rfl⟩ := Prod.mk.inj hs
    rfl
  have hs₂ := (leavesFiles_shownUrl url).files_eq (on_mapError_eq_ok hshown)
  rw [on_bind, on_note] at h
  have hnameless := hasNameless_of_columns (on_mapError_eq_ok h) hm
  rwa [← hs₁, ← hs₂]

lemma hasNameless_of_readColumns {root : Syntax.Tree} {table : String} {columns : List String}
    (h : (readColumns c (columnsOfProject c process) root).on s = (.ok (table, columns), s'))
    (hm : "" ∈ columns) : HasNameless s.files := by
  rw [readColumns, on_bind, on_noteAll] at h
  obtain ⟨columns', s₁, hread, h⟩ := on_bind_eq_ok h
  cases h
  exact (hasNameless_of_columnsOfProject hread hm :)

end Generate

end EloquentEntity

import EloquentEntity.Proofs.Database.Columns
import EloquentEntity.Proofs.Files.Placed
import EloquentEntity.Proofs.Generate.Steps

/-!
When a run changes the model that it reads.

The class goes to the model's place if it has the model's name and namespace. A run that must not
overwrite refuses that, because the model stands there; one that may overwrite replaces the model.
In all other cases the model's file keeps its bytes, whatever comes of the run.
-/

namespace EloquentEntity

namespace FileTree

variable {t t' : FileTree} {p source : Path} {bytes bs : List UInt8}

/-- A well-formed tree in which the bytes are those of the file at a path. -/
structure Holds (p : Path) (bytes : List UInt8) (t : FileTree) : Prop where
  wellFormed : t.WellFormed
  bytes_eq : t.bytes p = .ok bytes

lemma Holds.create (h : t.Holds p bytes) (hc : t.create source bs = .ok t') :
    t'.Holds p bytes := by
  obtain ⟨q, -, hne, hfree, hd, rfl⟩ := create_eq_ok hc
  have hnode (r : List String) (n : FileNode) (hr : t.node? r = some n) :
      (t.set q (.file bs)).node? r = some n := by
    rw [node?_set hne, if_neg, hr]
    rintro rfl
    rw [hfree] at hr
    cases hr
  refine ⟨⟨h.wellFormed.current_plain, hnode _ _ h.wellFormed.current_directory, ?_⟩,
    bytes_of_keeps (t := t) rfl hnode h.bytes_eq⟩
  intro r x n hr
  rw [node?_set hne] at hr
  split at hr
  · next he =>
    subst he
    rw [List.dropLast_concat] at hd
    exact hnode r _ hd
  · exact hnode r _ (h.wellFormed.parent_directory hr)

lemma Holds.begun {q xs : List String} (h : t.Holds p bytes) (hbegun : t.Begun t' q xs)
    (hq : t.node? q = some .directory) : t'.Holds p bytes :=
  ⟨hbegun.wellFormed h.wellFormed hq,
    bytes_of_keeps hbegun.current (fun _ _ => hbegun.node?_eq) h.bytes_eq⟩

end FileTree

namespace Generate

open FileTree Procedure

variable {c : Settings} {source : ColumnSource} {s : Session} {p : Path} {bytes : List UInt8}

/-! ### Sources of columns -/

/-- Columns are read without a loss to the file at a path. -/
def ColumnSource.Spares (source : ColumnSource) (p : Path) : Prop :=
  ∀ bytes table, Procedure.Keeps (Holds p bytes) (source table)

lemma ColumnSource.LeavesFiles.spares (h : source.LeavesFiles) (p : Path) : source.Spares p :=
  fun _ table => (h table).keeps _

lemma leavesFiles_databaseUrl (c : Settings) (process : Database.Environment) :
    LeavesFiles (databaseUrl c process) := by
  refine .bind .files fun t => .bind (.noteAll _) fun _ => .bind (.mapError _ (.ofExcept _)) ?_
  rintro (_ | url)
  · exact .throw _
  · dsimp only
    split
    · exact .throw _
    · exact .pure _

/-- The database of a project may be made, but not in the place of another file. -/
lemma columnsOfProject_spares (c : Settings) (process : Database.Environment) (p : Path) :
    ColumnSource.Spares (columnsOfProject c process) p := by
  intro bytes table
  exact .bind ((leavesFiles_databaseUrl c process).keeps _) fun url =>
    .bind (.mapError _ ((Database.leavesFiles_shownUrl url).keeps _)) fun _ =>
    .bind ((LeavesFiles.note _).keeps _) fun _ =>
    .mapError _ (Database.keeps_columns (fun _ _ _ h hc => h.create hc) url table)

/-! ### The steps of a run -/

lemma keeps_draft (hsource : source.Spares p) (c : Settings) (bytes : List UInt8) :
    Keeps (Holds p bytes) (draft c source) :=
  .bind ((leavesFiles_checkPreconditions c).keeps _) fun _ =>
    .bind (.timed _ ((leavesFiles_parseModel c).keeps _)) fun model =>
    .bind (.timed _ ((leavesFiles_resolveTypes c model.casts).keeps _)) fun _ =>
    .bind (.timed _ (.bind ((LeavesFiles.noteAll _).keeps _) fun _ =>
      .bind (hsource bytes _) fun _ => (LeavesFiles.pure _).keeps _)) fun _ =>
    .bind (.timed _ ((leavesFiles_render c _ _).keeps _)) fun _ => (LeavesFiles.pure _).keeps _

/-- The class is put beside the model, or nothing is put at all. -/
lemma keeps_write (hc : c.Checked) (h : c.outputPath = c.sourcePath → c.dryRun = true)
    (text : String) (bytes : List UInt8) : Keeps (Holds c.sourcePath bytes) (write c text) := by
  intro s hs
  by_cases hdry : c.dryRun = true
  · rw [(on_write_of_dryRun hdry text s).2]
    exact hs
  · have hdry' : c.dryRun = false := by simpa using hdry
    obtain ⟨q, hq, hd⟩ := exists_project hc hs.wellFormed (isFile_of_bytes hs.bytes_eq)
    rcases on_write hdry' hc hs.wellFormed hq hd text with
      ⟨-, hv, t, log, hw, hplaced⟩ | ⟨-, e, t, log, hw, hbegun, -⟩
    · have hnames : c.sourceNames ≠ c.outputNames ++ [c.outputName] :=
        fun he => hdry (h (hc.outputPath_eq_sourcePath_iff.mpr he.symm))
      rw [hw]
      exact ⟨hplaced.wellFormed hv hs.wellFormed hd,
        hplaced.bytes_eq_ok hv hs.wellFormed (reaches_source hc hq hd) hnames hs.bytes_eq⟩
    · rw [hw]
      exact hs.begun hbegun hd

/-- Where the class goes to the model's place the preconditions ask for leave to overwrite. -/
lemma mayOverwrite_of_preconditions (hm : s.files.isFile c.sourcePath = .ok true)
    (ho : ¬(s.files.isFile c.outputPath = .ok true ∧ c.force = false ∧ c.dryRun = false))
    (h : c.outputPath = c.sourcePath) : c.force = true ∨ c.dryRun = true := by
  rw [h] at ho
  by_contra hno
  obtain ⟨hforce, hdry⟩ := not_or.mp hno
  exact ho ⟨hm, by simpa using hforce, by simpa using hdry⟩

/-- The model is kept by each part of a run, up to the writing and with it. -/
lemma keeps_generate (hc : c.Checked) (hsource : source.Spares c.sourcePath)
    (h : ¬(c.outputPath = c.sourcePath ∧ c.force = true ∧ c.dryRun = false))
    (bytes : List UInt8) : Keeps (Holds c.sourcePath bytes) (generate c source) := by
  intro s hs
  obtain ⟨log, hrun⟩ := on_generate c source s
  have hs₁ := keeps_draft hsource c bytes s hs
  rcases hd : (draft c source).on s with ⟨e | d, s₁⟩
  · rw [hd] at hrun hs₁
    rw [hrun]
    exact hs₁
  · rw [hd] at hrun hs₁
    have hdry (hsame : c.outputPath = c.sourcePath) : c.dryRun = true := by
      obtain ⟨hm, -, ho⟩ := preconditions_of_draft hd
      by_contra hdry
      have hforce := (mayOverwrite_of_preconditions hm ho hsame).resolve_right hdry
      exact h ⟨hsame, hforce, by simpa using hdry⟩
    have hs₂ := keeps_write hc hdry d.definition.render bytes s₁ hs₁
    rcases hw : (write c d.definition.render).on s₁ with ⟨e | n, s₂⟩
    · simp only [hw] at hrun hs₂
      rw [hrun]
      exact hs₂
    · simp only [hw] at hrun hs₂
      rw [hrun]
      exact hs₂

/-- **A run keeps its model, unless it is told to replace it.** The class goes to the model's place
exactly if it is to have the model's name in the namespace of models; the preconditions let that
pass only where the run may overwrite or is on trial. Whatever comes of any other run, the model's
file has the bytes that it had; and where there is no such file nothing changes. -/
theorem generate_keeps_model (hc : c.Accepted) (hs : s.files.WellFormed)
    (hsource : source.Spares c.sourcePath) :
    (c.outputPath = c.sourcePath ↔ c.namespaceName = "Models" ∧ c.suffix = "") ∧
      (((checkPreconditions c).on s).1 = .ok () → c.outputPath = c.sourcePath →
        c.force = true ∨ c.dryRun = true) ∧
      (¬(c.outputPath = c.sourcePath ∧ c.force = true ∧ c.dryRun = false) →
        ∀ bytes, s.files.bytes c.sourcePath = .ok bytes →
          ((generate c source).on s).2.files.bytes c.sourcePath = .ok bytes) ∧
      (s.files.isFile c.sourcePath ≠ .ok true → ((generate c source).on s).2.files = s.files) := by
  refine ⟨?_, fun hpre => ?_, fun h bytes hb => ?_, fun hm => ?_⟩
  · exact hc.checked.outputPath_eq_sourcePath_iff.trans (Settings.outputNames_concat_eq_iff c)
  · obtain ⟨hm, -, ho⟩ := checkPreconditions_eq_ok_iff.mp hpre
    exact mayOverwrite_of_preconditions hm ho
  · exact (keeps_generate hc.checked hsource h bytes s ⟨hs, hb⟩).bytes_eq
  · obtain ⟨log, hrun⟩ := on_generate c source s
    rcases hpre : (checkPreconditions c).on s with ⟨e | _, s₁⟩
    · obtain rfl : s₁ = s := by rw [← snd_checkPreconditions c s, hpre]
      simp only [draft, on_bind, hpre] at hrun
      rw [hrun]
    · exact absurd (checkPreconditions_eq_ok_iff.mp (congrArg Prod.fst hpre)).1 hm

/-- The run on a small project's database keeps the model. -/
theorem generate_keeps_model_user :
    let c := { userSettings with force := true, databaseUrl := some "sqlite:////p/users.db" }
    ∃ bytes, userFiles.bytes c.sourcePath = .ok bytes ∧
      ((generate c (columnsOfProject c [])).on ⟨userFiles, [], .ofNat 0⟩).2.files.bytes c.sourcePath =
        .ok bytes := by
  intro c
  have hurl : Settings.assign { userSettings with force := true } .databaseUrl
      (.text "sqlite:////p/users.db") = .ok c := by rfl
  have hc : c.Accepted := userSettings_force_accepted.assigned hurl
  have hok : (userFiles.bytes c.sourcePath).isOk = true := by decide +kernel
  rcases hb : userFiles.bytes c.sourcePath with e | bytes
  · rw [hb] at hok
    cases hok
  · exact ⟨bytes, rfl, (generate_keeps_model (s := ⟨userFiles, [], .ofNat 0⟩) hc userFiles_wellFormed
      (columnsOfProject_spares c [] _)).2.2.1 (by decide) bytes hb⟩

/-- With the model's name in the namespace of models a run that may overwrite replaces the model. -/
theorem generate_replaces_model :
    let c := { userSettings with namespaceName := "Models", suffix := "", force := true }
    let files := ((generate c userColumns).on ⟨userFiles, [], .ofNat 0⟩).2.files
    c.Accepted ∧ userFiles.WellFormed ∧ userColumns.Spares c.sourcePath ∧
      ((checkPreconditions c).on ⟨userFiles, [], .ofNat 0⟩).1 = .ok () ∧
      c.outputPath = c.sourcePath ∧ ∃ bytes, userFiles.bytes c.sourcePath = .ok bytes ∧
        files.bytes c.sourcePath ≠ .ok bytes := by
  intro c files
  have hc : c.Accepted := .made (show Settings.ofRaw [("model", .text "User"),
    ("namespace", .text "Models"), ("suffix", .text ""), ("force", .bool true),
    ("project_path", .text "/p")] = _ from by rfl)
  have hpre : ((checkPreconditions c).on ⟨userFiles, [], .ofNat 0⟩).1 = .ok () :=
    checkPreconditions_eq_ok_iff.mpr
      ⟨by decide +kernel, by decide +kernel, fun h => absurd h.2.1 (by decide)⟩
  have hbefore : userFiles.bytes c.sourcePath = .ok (Text.Utf8.encode
      "<?php class User \x7b protected $casts = ['a' => \\App\\A::class]; \x7d".toList) := by
    decide +kernel
  have hafter : files.bytes c.sourcePath ≠ .ok (Text.Utf8.encode
      "<?php class User \x7b protected $casts = ['a' => \\App\\A::class]; \x7d".toList) := by
    decide +kernel
  exact ⟨hc, userFiles_wellFormed, userColumns_leavesFiles.spares _, hpre, by decide, _, hbefore,
    hafter⟩

end Generate

end EloquentEntity

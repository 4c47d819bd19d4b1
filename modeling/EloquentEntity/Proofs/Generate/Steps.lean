import EloquentEntity.Generate.Pipeline
import EloquentEntity.Proofs.Files.Replacing
import EloquentEntity.Proofs.Session
import EloquentEntity.Proofs.Settings

/-!
What each step of a run does to the session.

No step before the writing touches the files, given that the source of columns does not. The writing
puts the class in its place, or refuses and leaves the files as they are, but for directories that
it has made.
-/

namespace EloquentEntity.Generate

open FileTree Procedure

variable {c : Settings} {source : ColumnSource} {s s' : Session} {q : List String}

/-! ### Up to the writing -/

/-- Columns are read without touching the files. -/
def ColumnSource.LeavesFiles (source : ColumnSource) : Prop :=
  ∀ table, Procedure.LeavesFiles (source table)

lemma columnsIn_leavesFiles (tables : List Database.Table) :
    ColumnSource.LeavesFiles (columnsIn tables) := by
  intro table
  rw [columnsIn]
  cases tables.lookup table with
  | none => exact .throw _
  | some columns => exact .pure _

lemma on_checkPreconditions (c : Settings) (s : Session) :
    (checkPreconditions c).on s =
      (match s.files.isFile c.sourcePath with
      | .error e => .error (.fault (.unreadable (.file e)))
      | .ok false => .error (.refused (.noModel c.sourcePath))
      | .ok true =>
        match s.files.isFile c.outputPath with
        | .error e => .error (.fault (.unreadable (.file e)))
        | .ok there =>
          if there = true ∧ c.force = false ∧ c.dryRun = false then
            .error (.refused (.outputExists c.outputPath))
          else .ok (), s) := by
  rw [checkPreconditions, on_bind, on_files]
  dsimp only
  rw [answered, on_bind, on_mapError, on_ofExcept]
  rcases s.files.isFile c.sourcePath with e | hasModel
  · rfl
  · cases hasModel with
    | false => rfl
    | true =>
      simp only [Except.mapError, Bool.not_true, Bool.false_eq_true, if_false]
      rw [answered, on_bind, on_mapError, on_ofExcept]
      rcases s.files.isFile c.outputPath with e | hasOutput
      · rfl
      · by_cases h : hasOutput = true ∧ c.force = false ∧ c.dryRun = false <;>
          simp [Except.mapError, h, refuse]

lemma checkPreconditions_eq_ok_iff : ((checkPreconditions c).on s).1 = .ok () ↔
    s.files.isFile c.sourcePath = .ok true ∧ ¬s.files.Refuses c.outputPath ∧
      ¬(s.files.isFile c.outputPath = .ok true ∧ c.force = false ∧ c.dryRun = false) := by
  rw [on_checkPreconditions]
  rcases s.files.isFile c.sourcePath with e | _ | _
  · simp
  · simp
  · by_cases h : s.files.Refuses c.outputPath
    · simp [isFile_of_refuses h, fault, h]
    · rw [isFile_of_not_refuses h]
      by_cases ho : ((s.files.at? c.outputPath).any FileNode.isFile) = true ∧
          c.force = false ∧ c.dryRun = false <;> simp [h, ho]

lemma snd_checkPreconditions (c : Settings) (s : Session) :
    ((checkPreconditions c).on s).2 = s := by
  rw [on_checkPreconditions]

lemma leavesFiles_checkPreconditions (c : Settings) : LeavesFiles (checkPreconditions c) :=
  fun s => congrArg Session.files (snd_checkPreconditions c s)

lemma leavesFiles_parseModel (c : Settings) : LeavesFiles (parseModel c) := by
  refine .bind (.note _) fun _ => .bind .files fun files => .bind (.mapError _ (.ofExcept _)) ?_
  intro text
  cases Syntax.parse text with
  | none => exact .throw _
  | some root => exact .bind (.note _) fun _ => .bind (.note _) fun _ => .pure _

lemma leavesFiles_resolveTypes (c : Settings) (casts : CastMap) :
    LeavesFiles (resolveTypes c casts) :=
  .bind .files fun _ => .bind (.noteAll _) fun _ => .mapError _ (.ofExcept _)

lemma leavesFiles_readColumns (hsource : source.LeavesFiles) (c : Settings) (root : Syntax.Tree) :
    LeavesFiles (readColumns c source root) :=
  .bind (.noteAll _) fun _ => .bind (hsource _) fun _ => .pure _

lemma leavesFiles_render (c : Settings) (columns : List String) (types : ColumnTypes) :
    LeavesFiles (render c columns types) :=
  .bind (.mapError _ (.ofExcept _)) fun _ => .bind (.noteAll _) fun _ => .pure _

lemma leavesFiles_draft (hsource : source.LeavesFiles) (c : Settings) :
    LeavesFiles (draft c source) :=
  .bind (leavesFiles_checkPreconditions c) fun _ =>
    .bind (.timed _ (leavesFiles_parseModel c)) fun _ =>
    .bind (.timed _ (leavesFiles_resolveTypes c _)) fun _ =>
    .bind (.timed _ (leavesFiles_readColumns hsource c _)) fun _ =>
    .bind (.timed _ (leavesFiles_render c _ _)) fun _ => .pure _

/-- A draft is what its steps come to one after the other. -/
lemma on_draft_eq_ok_iff {d : Draft} {s₁ : Session} : (draft c source).on s = (.ok d, s₁) ↔
    ∃ s₂ s₃ s₄ s₅, (checkPreconditions c).on s = (.ok (), s₂) ∧
      (timed "parse model" (parseModel c)).on s₂ = (.ok d.model, s₃) ∧
      (timed "resolve types" (resolveTypes c d.model.casts)).on s₃ = (.ok d.types, s₄) ∧
      (timed "read columns" (readColumns c source d.model.root)).on s₄ =
        (.ok (d.table, d.columns), s₅) ∧
      (timed "render" (render c d.columns d.types)).on s₅ = (.ok d.definition, s₁) := by
  constructor
  · intro h
    obtain ⟨_, s₂, hpre, h⟩ := on_bind_eq_ok h
    obtain ⟨model, s₃, hparse, h⟩ := on_bind_eq_ok h
    obtain ⟨types, s₄, hresolve, h⟩ := on_bind_eq_ok h
    obtain ⟨⟨table, columns⟩, s₅, hread, h⟩ := on_bind_eq_ok h
    obtain ⟨definition, s₆, hrender, h⟩ := on_bind_eq_ok h
    cases h
    exact ⟨s₂, s₃, s₄, s₅, hpre, hparse, hresolve, hread, hrender⟩
  · rintro ⟨s₂, s₃, s₄, s₅, hpre, hparse, hresolve, hread, hrender⟩
    simp only [draft, on_bind, hpre, hparse, hresolve, hread, hrender, on_pure]

/-- There is a draft only of a model that is there, and only where the output is not in the way. -/
lemma preconditions_of_draft {d : Draft} {s₁ : Session} (h : (draft c source).on s = (.ok d, s₁)) :
    s.files.isFile c.sourcePath = .ok true ∧ ¬s.files.Refuses c.outputPath ∧
      ¬(s.files.isFile c.outputPath = .ok true ∧ c.force = false ∧ c.dryRun = false) := by
  obtain ⟨_, _, _, _, hpre, -⟩ := on_draft_eq_ok_iff.mp h
  exact checkPreconditions_eq_ok_iff.mp (congrArg Prod.fst hpre)

/-- Where the model is there, the project's path leads to a directory. -/
lemma exists_project (hc : c.Checked) (ht : s.files.WellFormed)
    (h : s.files.isFile c.sourcePath = .ok true) :
    ∃ q, s.files.place c.projectPath = .ok q ∧ s.files.node? q = some .directory := by
  rw [isFile_eq_true_iff, at?] at h
  rcases hp : s.files.place c.sourcePath with e | r
  · simp [hp] at h
  · rw [hc.sourcePath_eq] at hp
    exact ht.exists_reaches (by simp [Settings.sourceNames]) hp

lemma reaches_source (hc : c.Checked) (hq : s.files.place c.projectPath = .ok q)
    (hd : s.files.node? q = some .directory) : s.files.Reaches c.sourcePath q c.sourceNames :=
  ⟨⟨_, by rw [hc.sourcePath_eq], by rw [hc.sourcePath_eq]; exact hq⟩, hd, hc.sourceNames_plain⟩

lemma reaches_output (hc : c.Checked) (hq : s.files.place c.projectPath = .ok q)
    (hd : s.files.node? q = some .directory) : s.files.Reaches c.outputDirectory q c.outputNames :=
  ⟨⟨_, by rw [hc.outputDirectory_eq], by rw [hc.outputDirectory_eq]; exact hq⟩, hd,
    hc.outputNames_plain⟩

/-! ### The writing -/

lemma on_write_of_dryRun (h : c.dryRun = true) (text : String) (s : Session) :
    ((write c text).on s).1 = .ok (Text.Utf8.encode text.toList).length ∧
      ((write c text).on s).2.files = s.files := by
  simp only [write, Store.new, h, Store.makeDirectories, Store.write, if_true, on_bind,
    on_mapError, on_note, on_pure, Except.mapError, and_self]

/-- What a project's path can lead to has no null character, and no more has the output. -/
lemma null_notMem_outputPath (hc : c.Checked) (h : s.files.place c.projectPath = .ok q) :
    '\x00' ∉ (toString c.outputPath).toList := by
  rw [Path.null_mem_toString_iff, hc.outputPath_eq_append]
  rintro ⟨x, hx, hnull⟩
  rcases List.mem_append.mp hx with hx | hx
  · exact ((Path.fits_iff.mp (fits_of_place h)).2 x hx).1 hnull
  · exact hc.null_notMem x hx hnull

/-- The class is put in a vacant place by a path within the limits. Anywhere else the writing fails;
directories on the way to the place may then be new, but only if the place is vacant, and are there
if it is and their own path is within the limits. -/
lemma on_write (hdry : c.dryRun = false) (hc : c.Checked) (ht : s.files.WellFormed)
    (hq : s.files.place c.projectPath = .ok q) (hd : s.files.node? q = some .directory)
    (text : String) :
    (Store.Fits s.files.currentPath c.outputPath ∧ s.files.Vacant q c.outputNames c.outputName ∧
      ∃ t log, (write c text).on s =
        (.ok (Text.Utf8.encode text.toList).length, { s with files := t, log := log }) ∧
      s.files.Placed t q c.outputNames c.outputName (Text.Utf8.encode text.toList)) ∨
    (¬(Store.Fits s.files.currentPath c.outputPath ∧
        s.files.Vacant q c.outputNames c.outputName) ∧
      ∃ e t log, (write c text).on s = (.error e, { s with files := t, log := log }) ∧
        s.files.Begun t q c.outputNames ∧
        (s.files.Clear q c.outputNames → c.outputDirectory.Fits →
          t.node? (q ++ c.outputNames) = some .directory)) := by
  have h := reaches_output hc hq hd
  have hreach {t : FileTree} (hr : t.Reaches c.outputDirectory q c.outputNames) :
      t.Reaches c.outputPath q (c.outputNames ++ [c.outputName]) := by
    rw [hc.outputPath_eq]
    exact hr.child hc.outputName_ne
  have hparent : c.outputPath.parent = c.outputDirectory := by
    rw [hc.outputPath_eq, Path.child, Path.parent, List.dropLast_concat]
  have hnull := null_notMem_outputPath hc hq
  rcases Store.on_ensureDirectory_cases ht h with
    ⟨hclear, hfits, t, log, hensure, hmade, hbegun⟩ | ⟨hnot, e, t, log, hensure, hbegun⟩
  · have hdirectory := hmade.directory c.outputNames (List.prefix_refl _)
    have hvacant : t.Vacant q c.outputNames c.outputName ↔
        s.files.Vacant q c.outputNames c.outputName := by
      refine ⟨fun hv => ⟨hclear, ?_⟩, hmade.vacant⟩
      rw [← hmade.other _ fun zs hz => (append_ne_end hz).symm]
      exact hv.2
    have hreplace := Store.on_replaceText (s := { s with files := t, log := log })
      (hmade.wellFormed ht h.directory) (hreach (h.mono hmade.current fun r => hmade.keeps)) text
    simp only [hmade.currentPath_eq, hvacant] at hreplace
    rcases hreplace with ⟨hfits', hv, t', log', hrun, hplaced⟩ | ⟨hnot, e, t', log', hrun, hkept⟩
    · refine .inl ⟨hfits', hv, t', log', ?_, hmade.placed hplaced⟩
      simp only [write, Store.new, hdry, Store.makeDirectories, Store.write, on_bind, on_mapError,
        Bool.false_eq_true, if_false, hensure, hrun, on_pure, Except.mapError]
    · refine .inr ⟨hnot, .refused (.unwritable c.outputPath e), t', log', ?_, ?_⟩
      · simp only [write, Store.new, hdry, Store.makeDirectories, Store.write, on_bind, on_mapError,
          Bool.false_eq_true, if_false, hensure, hrun, Except.mapError]
      · -- The directories are there by now, so the second writing makes none.
        obtain rfl := (hkept hnull).1.eq_of_directory hdirectory
        exact ⟨hbegun, fun _ _ => hdirectory⟩
  · refine .inr ⟨fun h => hnot ⟨h.2.1, hparent ▸ h.1.path.parent⟩,
      .refused (.unwritable c.outputPath e), t, log, ?_, hbegun,
      fun hclear hfits => absurd ⟨hclear, hfits⟩ hnot⟩
    simp only [write, Store.new, hdry, Store.makeDirectories, Store.write, on_bind, on_mapError,
      Bool.false_eq_true, if_false, hensure, Except.mapError]

lemma vacant_of_write (hdry : c.dryRun = false) (hc : c.Checked) (ht : s.files.WellFormed)
    (hq : s.files.place c.projectPath = .ok q) (hd : s.files.node? q = some .directory)
    {text : String} {n : Nat} (hw : ((write c text).on s).1 = .ok n) :
    Store.Fits s.files.currentPath c.outputPath ∧ s.files.Vacant q c.outputNames c.outputName := by
  rcases on_write hdry hc ht hq hd text with ⟨hfits, hv, -⟩ | ⟨-, e, t, log, he, -⟩
  · exact ⟨hfits, hv⟩
  · rw [he] at hw
    cases hw

/-- The size that is told is that of the text, and the text is what the output then holds. -/
lemma write_eq_ok {text : String} {n : Nat} (h : (write c text).on s = (.ok n, s')) :
    n = (Text.Utf8.encode text.toList).length ∧
      (c.dryRun = false → s'.files.bytes c.outputPath = .ok (Text.Utf8.encode text.toList)) := by
  by_cases hdry : c.dryRun = true
  · have hok := (on_write_of_dryRun hdry text s).1
    rw [h] at hok
    exact ⟨Except.ok.inj hok, fun hw => absurd (hdry.symm.trans hw) (by decide)⟩
  · have hdry' : c.dryRun = false := by simpa using hdry
    obtain ⟨⟨m, store⟩, s₁, hact, h⟩ := on_bind_eq_ok h
    obtain ⟨_, s₂, -, hact⟩ := on_bind_eq_ok (on_mapError_eq_ok hact)
    simp only [Store.write, Store.new, hdry', Bool.false_eq_true, if_false] at hact
    obtain ⟨k, s₃, hreplace, hact⟩ := on_bind_eq_ok hact
    cases hact
    cases h
    obtain ⟨hk, hbytes⟩ := Store.bytes_of_replaceText hreplace
    exact ⟨hk, fun _ => hbytes⟩

lemma write_eq_error {text : String} {e : Failure} (h : (write c text).on s = (.error e, s')) :
    ∃ e', e = .refused (.unwritable c.outputPath e') := by
  rw [write, on_bind] at h
  split at h
  · cases h
  · next hact =>
    cases h
    obtain ⟨e', -, rfl⟩ := on_mapError_eq_error hact
    exact ⟨e', rfl⟩

/-! ### The run -/

lemma on_generate (c : Settings) (source : ColumnSource) (s : Session) :
    ∃ log, (generate c source).on s =
      match (draft c source).on s with
      | (.error e, s₁) => (.error e, { s₁ with log := log })
      | (.ok d, s₁) =>
        match (write c d.definition.render).on s₁ with
        | (.error e, s₂) => (.error e, { s₂ with log := log })
        | (.ok n, s₂) => (.ok (d.report c n), { s₂ with log := log }) := by
  rcases hd : (draft c source).on s with ⟨e | d, s₁⟩
  · exact ⟨_, by simp only [generate, steps, on_bind, on_timed, hd]; rfl⟩
  · rcases hw : (write c d.definition.render).on s₁ with ⟨e | n, s₂⟩
    · exact ⟨_, by simp only [generate, steps, on_bind, on_timed, hd, hw]; rfl⟩
    · exact ⟨_, by simp only [generate, steps, on_bind, on_timed, hd, hw, on_pure, on_note]; rfl⟩

/-! ### A small project -/

def userSettings : Settings :=
  { Settings.initial with model := "User", projectPath := ⟨.slash, ["p"]⟩ }

lemma userSettings_accepted : userSettings.Accepted :=
  .made (show Settings.ofRaw [("model", .text "User"), ("project_path", .text "/p")] = _ from
    by rfl)

lemma userSettings_force_accepted : Settings.Accepted { userSettings with force := true } :=
  userSettings_accepted.assigned (show userSettings.assign .force (.bool true) = .ok _ from rfl)

def userFiles : FileTree where
  current := []
  nodes := OrderedMap.ofList [(["p"], .directory), (["p", "app"], .directory),
    (["p", "app", "Models"], .directory),
    (["p", "app", "Models", "User.php"], .file (Text.Utf8.encode
      "<?php class User \x7b protected $casts = ['a' => \\App\\A::class]; \x7d".toList))]

lemma userFiles_wellFormed : userFiles.WellFormed := by decide +kernel

def userColumns : ColumnSource := columnsIn [("users", ["id", "a"])]

lemma userColumns_leavesFiles : userColumns.LeavesFiles := columnsIn_leavesFiles _

lemma exists_userRun :
    ∃ r, ((generate userSettings userColumns).on ⟨userFiles, [], .ofNat 0⟩).1 = .ok r := by
  have hok : ((generate userSettings userColumns).on ⟨userFiles, [], .ofNat 0⟩).1.isOk = true := by
    decide +kernel
  rcases hr : ((generate userSettings userColumns).on ⟨userFiles, [], .ofNat 0⟩).1 with e | r
  · rw [hr] at hok
    cases hok
  · exact ⟨r, rfl⟩

end EloquentEntity.Generate

import EloquentEntity.Proofs.Files.Writing
import EloquentEntity.Proofs.Generate.DryRun

/-!
A run writes its class or changes nothing.

Whatever can go wrong does so before the files are touched, or while the class is written. The
writing, too, changes nothing when it fails, with one exception: a class whose file or temporary
file has a name or path that is too long fails when its directories have been made.
-/

namespace EloquentEntity.Generate

open FileTree Procedure

variable {c : Settings} {source : ColumnSource} {s : Session} {q : List String}

/-- What the writing has left of a run that failed: directories on the way to a place that is
vacant. -/
structure Abandoned (c : Settings) (s s' : Session) (q : List String) : Prop where
  project : s.files.place c.projectPath = .ok q
  directory : s.files.node? q = some .directory
  beyond : ¬Store.Fits s.files.currentPath c.outputPath
  vacant : s.files.Vacant q c.outputNames c.outputName
  begun : s.files.Begun s'.files q c.outputNames

/-- A run leaves the files as they are, has made directories for a class that could not be written,
or has put its class in a vacant place. -/
lemma generate_cases (hc : c.Checked) (hsource : source.LeavesFiles) (hs : s.files.WellFormed) :
    (((generate c source).on s).2.files = s.files ∧
        (c.dryRun = true ∨ ∃ e, ((generate c source).on s).1 = .error e)) ∨
      (c.dryRun = false ∧ ¬(s.files.isFile c.outputPath = .ok true ∧ c.force = false) ∧
        (∃ e, ((generate c source).on s).1 = .error e) ∧
        ∃ q, Abandoned c s ((generate c source).on s).2 q) ∨
      (c.dryRun = false ∧ ¬(s.files.isFile c.outputPath = .ok true ∧ c.force = false) ∧
        ∃ r q, ((generate c source).on s).1 = .ok r ∧ c.outputPath.Fits ∧
          s.files.Reaches c.outputDirectory q c.outputNames ∧
          s.files.Vacant q c.outputNames c.outputName ∧
          s.files.Placed ((generate c source).on s).2.files q c.outputNames c.outputName
            (Text.Utf8.encode r.content.toList)) := by
  obtain ⟨log, hrun⟩ := on_generate c source s
  have hleaves := leavesFiles_draft hsource c s
  rcases hd : (draft c source).on s with ⟨e | d, s₁⟩
  · rw [hd] at hrun hleaves
    exact .inl ⟨by simpa [hrun] using hleaves, .inr ⟨e, by rw [hrun]⟩⟩
  · rw [hd] at hrun hleaves
    obtain ⟨hmodel, -, hpre⟩ := preconditions_of_draft hd
    -- There is a draft, so that all depends on the writing.
    by_cases hdry : c.dryRun = true
    · obtain ⟨hok, hkeep⟩ := on_write_of_dryRun hdry d.definition.render s₁
      rcases hw : (write c d.definition.render).on s₁ with ⟨e | n, s₂⟩
      · simp [hw] at hok
      · rw [hw] at hkeep
        exact .inl ⟨by simpa [hrun, hw] using hkeep.trans hleaves, .inl hdry⟩
    · have hdry' : c.dryRun = false := by simpa using hdry
      have hpre' : ¬(s.files.isFile c.outputPath = .ok true ∧ c.force = false) :=
        fun h => hpre ⟨h.1, h.2, hdry'⟩
      obtain ⟨q, hq, hd⟩ := exists_project hc hs hmodel
      have hleaves' : s₁.files = s.files := hleaves
      have hwrite := on_write hdry' hc (hleaves' ▸ hs) (hleaves' ▸ hq) (hleaves' ▸ hd)
        d.definition.render
      rw [hleaves'] at hwrite
      rcases hwrite with ⟨hfits, hv, t, log', hw, hplaced⟩ | ⟨hnot, e, t, log', hw, hbegun, -⟩
      · simp only [hw] at hrun
        refine .inr (.inr ⟨hdry', hpre', d.report c _, q, by rw [hrun], hfits.path,
          reaches_output hc hq hd, hv, ?_⟩)
        rw [hrun]
        exact hplaced
      · simp only [hw] at hrun
        by_cases hv : s.files.Vacant q c.outputNames c.outputName
        · refine .inr (.inl ⟨hdry', hpre', ⟨e, by rw [hrun]⟩, q, hq, hd,
            fun hfits => hnot ⟨hfits, hv⟩, hv, ?_⟩)
          rw [hrun]
          exact hbegun
        · -- Nothing is made on the way to a place that is taken.
          obtain rfl := hbegun.eq_of_not_vacant hs hv
          exact .inl ⟨by rw [hrun], .inr ⟨e, by rw [hrun]⟩⟩

/-- Where the output goes its directory stands above it, below the project. -/
lemma locate_output (hc : c.Checked) (hq : s.files.place c.projectPath = .ok q)
    (hd : s.files.node? q = some .directory) :
    s.files.locate c.outputDirectory = q ++ c.outputNames ∧
      s.files.locate c.outputPath = q ++ c.outputNames ++ [c.outputName] := by
  have hreach := reaches_output hc hq hd
  have hchild := hreach.child hc.outputName_ne
  rw [← hc.outputPath_eq] at hchild
  exact ⟨hreach.locate, hchild.locate.trans (List.append_assoc ..).symm⟩

/-- A class that would be written, were it not for its long name, leaves its directories. -/
lemma generate_of_not_fits {d : Draft} (hc : c.Checked) (hsource : source.LeavesFiles)
    (hs : s.files.WellFormed) (hdry : c.dryRun = false) (hd : ((draft c source).on s).1 = .ok d)
    (hfree : s.files.Free (s.files.locate c.outputPath))
    (hfits : ¬Store.Fits s.files.currentPath c.outputPath) (hdirectory : c.outputDirectory.Fits) :
    (∃ e, ((generate c source).on s).1 = .error e) ∧
      ((generate c source).on s).2.files.node? (s.files.locate c.outputDirectory) =
        some .directory := by
  obtain ⟨log, hrun⟩ := on_generate c source s
  have hleaves := leavesFiles_draft hsource c s
  rcases hdraft : (draft c source).on s with ⟨r, s₁⟩
  rw [hdraft] at hrun hleaves hd
  obtain rfl : r = .ok d := hd
  obtain ⟨q, hq, hdir⟩ := exists_project hc hs (preconditions_of_draft hdraft).1
  obtain ⟨houtput, hplace⟩ := locate_output hc hq hdir
  have hleaves' : s₁.files = s.files := hleaves
  have hwrite := on_write hdry hc (hleaves' ▸ hs) (hleaves' ▸ hq) (hleaves' ▸ hdir)
    d.definition.render
  rw [hleaves'] at hwrite
  rcases hwrite with ⟨h, -⟩ | ⟨-, e, t, log', hw, -, hmade⟩
  · exact absurd h hfits
  · simp only [hw] at hrun
    rw [hrun, houtput]
    rw [hplace, ← vacant_iff_free hs hdir] at hfree
    exact ⟨⟨e, rfl⟩, hmade hfree.1 hdirectory⟩

/-- **A run changes its output or nothing, within the limits of the system.** A run that writes on
trial leaves all files and directories as they are, and so does one that finds a file where it may
not overwrite any, and one that fails while the paths of the output and of its temporary file are
within the limits, or while the output's directory is there. Any other run that fails leaves all as
it was but for directories above the output that were missing; and these are new if there is a draft
that only the limits keep from being written, and the directory's own path is within them. A run
that writes leaves its text at the output's place and directories above it; all else is as before.
-/
theorem generate_frame (hc : c.Accepted) (hsource : source.LeavesFiles) (hs : s.files.WellFormed) :
    let run := (generate c source).on s
    let files := run.2.files
    (∀ e, run.1 = .error e →
        (Store.Fits s.files.currentPath c.outputPath → files = s.files) ∧
        (s.files.node? (s.files.locate c.outputDirectory) = some .directory → files = s.files) ∧
        files.current = s.files.current ∧
        ∀ r, files.node? r = s.files.node? r ∨ r <+: s.files.locate c.outputDirectory ∧
          s.files.node? r = none ∧ files.node? r = some .directory) ∧
      (c.dryRun = true → files = s.files) ∧
      (s.files.isFile c.outputPath = .ok true → c.force = false → files = s.files) ∧
      (∀ d, ((draft c source).on s).1 = .ok d → c.dryRun = false →
        s.files.Free (s.files.locate c.outputPath) →
        ¬Store.Fits s.files.currentPath c.outputPath → c.outputDirectory.Fits →
          (∃ e, run.1 = .error e) ∧
            files.node? (s.files.locate c.outputDirectory) = some .directory) ∧
      ∀ r, run.1 = .ok r → c.dryRun = false →
        files.current = s.files.current ∧
        ∃ p, files.place c.outputPath = .ok p ∧
          files.node? p = some (.file (Text.Utf8.encode r.content.toList)) ∧
          ∀ q, q ≠ p → files.node? q = s.files.node? q ∨
            q <+: p ∧ s.files.node? q = none ∧ files.node? q = some .directory := by
  have hleft (d : Draft) (hd : ((draft c source).on s).1 = .ok d) (hdry : c.dryRun = false) :=
    generate_of_not_fits hc.checked hsource hs hdry hd
  have hcases := generate_cases hc.checked hsource hs
  generalize (generate c source).on s = run at hleft hcases ⊢
  intro run files
  rcases hcases with ⟨hfiles, hwhy⟩ |
    ⟨hdry, hpre, ⟨e, he⟩, q, hq⟩ | ⟨hdry, hpre, r, q, hr, hfits, hreach, hv, hplaced⟩
  · -- Nothing has changed.
    refine ⟨fun e he => ⟨fun _ => hfiles, fun _ => hfiles, congrArg FileTree.current hfiles,
      fun r => .inl (congrArg (·.node? r) hfiles)⟩, fun _ => hfiles,
      fun _ _ => hfiles, hleft, fun r hr hdry => ?_⟩
    rcases hwhy with h | ⟨e, he⟩
    · rw [hdry] at h
      cases h
    · cases hr.symm.trans he
  · -- Directories may have been made.
    obtain ⟨houtput, -⟩ := locate_output hc.checked hq.project hq.directory
    refine ⟨fun e he => ⟨fun h => absurd h hq.beyond, fun hd => ?_, hq.begun.current, fun r => ?_⟩,
      fun h => ?_, fun ho hf => absurd ⟨ho, hf⟩ hpre, hleft, fun r hr _ => ?_⟩
    · exact hq.begun.eq_of_directory (houtput ▸ hd)
    · rw [houtput]
      exact hq.begun.node_cases r
    · rw [hdry] at h
      cases h
    · cases hr.symm.trans he
  · -- The class is in its place.
    refine ⟨fun e he => ?_, fun h => ?_, fun ho hf => absurd ⟨ho, hf⟩ hpre, hleft,
      fun r' hr' _ => ?_⟩
    · cases hr.symm.trans he
    · rw [hdry] at h
      cases h
    · obtain rfl : r = r' := Except.ok.inj (hr.symm.trans hr')
      have hreach' : s.files.Reaches c.outputPath q (c.outputNames ++ [c.outputName]) := by
        rw [hc.checked.outputPath_eq]
        exact hreach.child hc.checked.outputName_ne
      exact ⟨hplaced.current, _, hplaced.place hv hreach' hfits, hplaced.file,
        fun p hp => hplaced.node_cases hv hp⟩

/-- In the small project the run writes, and no node is lost. -/
theorem generate_frame_user :
    ∃ r p, ((generate userSettings userColumns).on ⟨userFiles, [], .ofNat 0⟩).1 = .ok r ∧
      ((generate userSettings userColumns).on ⟨userFiles, [], .ofNat 0⟩).2.files.node? p =
        some (.file (Text.Utf8.encode r.content.toList)) ∧
      ∀ q, q ≠ p →
        ((generate userSettings userColumns).on ⟨userFiles, [], .ofNat 0⟩).2.files.node? q =
            userFiles.node? q ∨
          q <+: p ∧ userFiles.node? q = none ∧
            ((generate userSettings userColumns).on ⟨userFiles, [], .ofNat 0⟩).2.files.node? q =
              some .directory := by
  obtain ⟨r, hr⟩ := exists_userRun
  obtain ⟨-, -, -, -, hwritten⟩ := generate_frame (s := ⟨userFiles, [], .ofNat 0⟩)
    userSettings_accepted userColumns_leavesFiles userFiles_wellFormed
  have hdry : userSettings.dryRun = false := rfl
  obtain ⟨-, p, -, hfile, hother⟩ := hwritten r hr hdry
  exact ⟨r, p, hr, hfile, hother⟩

/-! ### A class without a place -/

/-- The settings of the small project with a suffix of 238 letters. The class's file could have its
name, but the temporary file cannot. -/
def longSettings : Settings :=
  { userSettings with suffix := String.ofList (List.replicate 238 'x') }

lemma longSettings_accepted : longSettings.Accepted := by
  have hsuffix : longSettings.suffix.toList = List.replicate 238 'x' := String.toList_ofList
  refine userSettings_accepted.assigned (Settings.assign_suffix (x := longSettings.suffix) ?_ ?_)
  · rw [hsuffix]
    decide +kernel
  · rw [hsuffix]
    decide +kernel

lemma longSettings_outputNames : longSettings.outputNames = ["app", "Entities"] := by decide +kernel

lemma longSettings_outputPath :
    longSettings.outputPath =
      ⟨.slash, ["p", "app", "Entities", longSettings.className ++ ".php"]⟩ := by
  rw [longSettings_accepted.checked.outputPath_eq_append, longSettings_outputNames]
  rfl

lemma not_fits_longSettings (here : Path) : ¬Store.Fits here longSettings.outputPath := by
  have hname : longSettings.outputPath.fileName = longSettings.className ++ "." ++ "php" := by
    rw [longSettings_outputPath]
    decide +kernel
  exact Store.not_fits_of_fileName hname (by decide +kernel) (by decide +kernel)
    (by decide +kernel)

lemma userFiles_project : userFiles.place longSettings.projectPath = .ok ["p"] := by decide +kernel

lemma userFiles_place_output : userFiles.place longSettings.outputPath = .error .notFound := by
  have htext : checkPath longSettings.outputPath = .ok () := by
    refine checkPath_eq_ok_iff.mpr
      ⟨null_notMem_outputPath (s := ⟨userFiles, [], .ofNat 0⟩) longSettings_accepted.checked
        userFiles_project, ?_⟩
    rw [longSettings_outputPath]
    decide +kernel
  rw [place_of_checkPath htext, longSettings_outputPath]
  decide +kernel

/-- The run fails, and has made a directory. -/
theorem generate_leaves_directory :
    let s : Session := ⟨userFiles, [], .ofNat 0⟩
    longSettings.Accepted ∧ userColumns.LeavesFiles ∧ s.files.WellFormed ∧
      (∃ e, ((generate longSettings userColumns).on s).1 = .error e) ∧
      s.files.node? ["p", "app", "Entities"] = none ∧
      ((generate longSettings userColumns).on s).2.files.node? ["p", "app", "Entities"] =
        some .directory := by
  intro s
  have hc := longSettings_accepted.checked
  have hp : s.files.node? ["p"] = some .directory := by decide +kernel
  have hmissing : s.files.node? ["p", "app", "Entities"] = none := by decide +kernel
  have hinspect : ((inspect longSettings userColumns).on s).1.isOk = true := by decide +kernel
  rcases hdraft : ((inspect longSettings userColumns).on s).1 with e | d
  · rw [hdraft] at hinspect
    cases hinspect
  · have hd : ((draft longSettings userColumns).on s).1 = .ok d := by
      refine draft_eq_ok_iff.mpr ⟨⟨by decide +kernel, ?_, ?_⟩, hdraft⟩
      · rw [Refuses, userFiles_place_output]
        simp
      · rw [isFile_eq_true_iff, at?, userFiles_place_output]
        simp
    obtain ⟨hdirectory, hlocate⟩ := locate_output hc userFiles_project hp
    have hfree : s.files.Free (s.files.locate longSettings.outputPath) := by
      rw [hlocate, longSettings_outputNames]
      exact userFiles_wellFormed.free_below hmissing (by decide +kernel)
    have hfits : longSettings.outputDirectory.Fits := by
      rw [hc.outputDirectory_eq, longSettings_outputNames]
      decide +kernel
    have hdry : longSettings.dryRun = false := rfl
    obtain ⟨he, hleft⟩ := generate_of_not_fits hc userColumns_leavesFiles userFiles_wellFormed hdry
      hd hfree (not_fits_longSettings _) hfits
    rw [hdirectory, longSettings_outputNames, List.singleton_append] at hleft
    exact ⟨longSettings_accepted, userColumns_leavesFiles, userFiles_wellFormed, he, hmissing,
      hleft⟩

end EloquentEntity.Generate

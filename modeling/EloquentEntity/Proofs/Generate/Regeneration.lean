import EloquentEntity.Proofs.Casts.SourcePath
import EloquentEntity.Proofs.Files.Placed
import EloquentEntity.Proofs.Generate.Isolation

/-!
What a run finds where it has written already.

The first run leaves its class and directories above it in the place where classes are looked up
too. A path through plain names that is not the class's own leads to nothing new but directories,
which hold no class. So the second run reads what the first one read, and writes what is there.
-/

namespace EloquentEntity

namespace FileTree.Placed

variable {t t' : FileTree} {p : Path} {q xs ys : List String} {x : String} {bytes : List UInt8}

lemma isFile_ok (h : t.Placed t' q xs x bytes) (hv : t.Vacant q xs x) (ht : t.WellFormed)
    (hp : t.Reaches p q ys) (hne : ys ≠ xs ++ [x]) (hfile : t.isFile p = .ok true) :
    t'.isFile p = .ok true := by
  rw [isFile_eq_true_iff] at hfile ⊢
  rcases h.at?_cases hv ht hp hne with he | ⟨hnone, hd⟩
  · rw [he]
    exact hfile
  · rw [hnone] at hfile
    cases hfile

lemma refuses (h : t.Placed t' q xs x bytes) (hv : t.Vacant q xs x) (hp : t.Refuses p) :
    t'.Refuses p :=
  refuses_mono h.current (fun _ => h.keeps hv) hp

lemma read_ok (h : t.Placed t' q xs x bytes) (hv : t.Vacant q xs x) (ht : t.WellFormed)
    (hp : t.Reaches p q ys) (hne : ys ≠ xs ++ [x]) {text : String} (hr : t.read p = .ok text) :
    t'.read p = .ok text := by
  rw [read] at hr ⊢
  rcases hb : t.bytes p with e | bs
  · simp [hb] at hr
  · rw [hb] at hr
    rw [h.bytes_eq_ok hv ht hp hne hb]
    exact hr

end FileTree.Placed

namespace Casts

variable {t t' : FileTree} {root : Path} {name : String} {q xs : List String} {x : String}
  {bytes : List UInt8}

/-- A class that is looked up below the application's directory, and not in the new file, says what
it said before if the system answers for its source. -/
lemma findings_eq_of_placed (h : t.Placed t' q xs x bytes) (hv : t.Vacant q xs x)
    (ht : t.WellFormed) (hq : t.place root = .ok q) (hd : t.node? q = some .directory)
    (hc : Confined name)
    (hne : sourcePath? root name ≠ some ⟨root.root, root.parts ++ (xs ++ [x])⟩)
    (hr : ¬Refused t' root name) : findings t' root name = findings t root name := by
  have hr' : ¬Refused t root name := fun ⟨p, hp, hp'⟩ => hr ⟨p, hp, h.refuses hv hp'⟩
  rw [findings_eq hr, findings_eq hr', sourcePlace?, sourcePlace?]
  rcases hp : sourcePath? root name with _ | p
  · rfl
  · obtain ⟨hroot, names, -, hnames, hparts⟩ := hc.below hp
    obtain ⟨_, _⟩ := p
    simp only [Path.child, List.append_assoc, List.singleton_append] at hroot hparts
    subst hroot hparts
    have hreach : t.Reaches ⟨root.root, root.parts ++ Settings.appDirectory :: names⟩ q
        (Settings.appDirectory :: names) :=
      ⟨⟨root.parts, rfl, hq⟩, hd, by simpa [Settings.appDirectory] using hnames⟩
    have hne' : Settings.appDirectory :: names ≠ xs ++ [x] := by
      intro he
      rw [hp, he] at hne
      exact hne rfl
    rw [Option.bind_some, Option.bind_some, ← FileTree.at?_eq, ← FileTree.at?_eq]
    rcases h.at?_cases hv ht hreach hne' with he | ⟨hnone, hdir⟩
    · rw [he]
    · -- A directory has no more to say than nothing.
      rw [hnone, hdir]
      rfl

end Casts

namespace Generate

open FileTree Procedure Casts

variable {c : Settings} {source : ColumnSource} {s s' s₁ : Session} {d : Draft} {r : Report}
  {q : List String}

lemma follows_render_same (t t' : FileTree) (c : Settings) (columns : List String)
    (types : ColumnTypes) : Follows t t' Eq (render c columns types) (render c columns types) := by
  refine .bind (R := Eq) (.mapError _ _ (.ofExcept fun d hd => ⟨d, hd, rfl⟩)) ?_
  rintro definition _ rfl
  exact .bind (.noteAll _ _) fun _ _ _ => .pure rfl

/-- To make a draft leaves the files as they are. -/
lemma files_of_draft {t' : FileTree} (hsame : source.Same s.files t')
    (hd : (draft c source).on s = (.ok d, s₁)) : s₁.files = s.files := by
  obtain ⟨s₂, s₃, s₄, s₅, hpre, hparse, hresolve, hread, hrender⟩ := on_draft_eq_ok_iff.mp hd
  have h₂ := (leavesFiles_checkPreconditions c).files_eq hpre
  have h₃ := ((leavesFiles_parseModel c).timed "parse model").files_eq hparse
  have h₄ := ((leavesFiles_resolveTypes c d.model.casts).timed "resolve types").files_eq hresolve
  have h₄' : s₄.files = s.files := h₄.trans (h₃.trans h₂)
  obtain ⟨h₅, -⟩ := ((follows_readColumns hsame c d.model.root).timed "read columns") s₄
    ⟨t', [], .ofNat 0⟩ _ s₅ h₄' rfl hread
  exact (((leavesFiles_render c _ _).timed "render").files_eq hrender).trans h₅

/-- A draft comes about again where the model reads the same, the columns are the same and so are
the types of the casts. -/
lemma draft_again (hsame : source.Same s.files s'.files)
    (hd : (draft c source).on s = (.ok d, s₁)) (hforce : c.force = true)
    (hm : s.files.isFile c.sourcePath = .ok true → s'.files.isFile c.sourcePath = .ok true)
    (hanswer : ¬s'.files.Refuses c.outputPath)
    (hread : ∀ text, s.files.read c.sourcePath = .ok text →
      s'.files.read c.sourcePath = .ok text)
    (htypes : ∀ column descriptor, d.model.casts.get? column = some descriptor →
      typeBy (Resolver.fresh s'.files c.projectPath) descriptor =
        typeBy (Resolver.fresh s.files c.projectPath) descriptor) :
    ∃ s₁', (draft c source).on s' = (.ok d, s₁') ∧ s₁'.files = s'.files := by
  obtain ⟨s₂, s₃, s₄, s₅, hpre, hparse, hresolve, hcolumns, hrender⟩ := on_draft_eq_ok_iff.mp hd
  have hout : s'.files.isFile c.outputPath = .ok true → c.force = false →
      s.files.isFile c.outputPath = .ok true := fun _ h => absurd (hforce.symm.trans h) (by decide)
  obtain ⟨g, hg, htypes'⟩ :=
    columnTypes_eq_ok_iff.mp (columnTypes_of_draft (congrArg Prod.fst hd))
  have htypes'' : columnTypes (m := Except FileError) (Resolver.fresh s'.files c.projectPath)
      d.model.casts = .ok d.types := by
    rw [htypes']
    exact columnTypes_eq_ok fun e he =>
      (htypes e.1 e.2 (OrderedMap.get?_eq_some_iff.mpr he)).trans (hg e he)
  -- Step by step the same comes of the second run.
  obtain ⟨h₂, _, s₂', hpre', -, h₂'⟩ := follows_checkPreconditions hm
    (fun h => absurd h hanswer) hout s s' _ s₂ rfl rfl hpre
  obtain ⟨h₃, _, s₃', hparse', rfl, h₃'⟩ :=
    (follows_parseModel hread).timed "parse model" _ s₂' _ s₃ h₂ h₂' hparse
  obtain ⟨h₄, types, s₄', hresolve', ⟨-, hd₂⟩, h₄'⟩ :=
    (follows_resolveTypes c (exists_columnTypes_fresh_iff.mp ⟨_, htypes''⟩)).timed "resolve types"
      _ s₃' _ s₄ h₃ h₃' hresolve
  obtain rfl := Except.ok.inj (hd₂.symm.trans htypes'')
  obtain ⟨h₅, _, s₅', hcolumns', rfl, h₅'⟩ :=
    (follows_readColumns hsame c d.model.root).timed "read columns" _ s₄' _ s₅ h₄ h₄' hcolumns
  obtain ⟨-, _, s₁', hrender', rfl, h₁'⟩ :=
    (follows_render_same _ _ c d.columns d.types).timed "render" _ s₅' _ s₁ h₅ h₅' hrender
  exact ⟨s₁', on_draft_eq_ok_iff.mpr ⟨s₂', s₃', s₄', s₅', hpre', hparse', hresolve', hcolumns',
    hrender'⟩, h₁'⟩

/-- A draft that has been made is put in its place if that is vacant. -/
lemma generate_of_vacant (hdry : c.dryRun = false) (hc : c.Checked) (hs : s.files.WellFormed)
    (hq : s.files.place c.projectPath = .ok q) (hdir : s.files.node? q = some .directory)
    (hd : (draft c source).on s = (.ok d, s₁)) (h₁ : s₁.files = s.files)
    (hfits : Store.Fits s.files.currentPath c.outputPath)
    (hv : s.files.Vacant q c.outputNames c.outputName) :
    ((generate c source).on s).1 =
        .ok (d.report c (Text.Utf8.encode d.definition.render.toList).length) ∧
      s.files.Placed ((generate c source).on s).2.files q c.outputNames c.outputName
        (Text.Utf8.encode d.definition.render.toList) := by
  obtain ⟨log, hrun⟩ := on_generate c source s
  rw [← h₁] at hs hq hdir hfits hv
  rcases on_write hdry hc hs hq hdir d.definition.render with
    ⟨-, -, t, log', hw, hplaced⟩ | ⟨hnot, -⟩
  · rw [hd] at hrun
    simp only [hw] at hrun
    rw [hrun]
    exact ⟨rfl, h₁ ▸ hplaced⟩
  · exact absurd ⟨hfits, hv⟩ hnot

/-- A run that succeeds has made a draft, and its place was vacant and within the limits. -/
lemma draft_of_generate_eq_ok {t' : FileTree} (hdry : c.dryRun = false) (hc : c.Checked)
    (hs : s.files.WellFormed) (hsame : source.Same s.files t')
    (hr : ((generate c source).on s).1 = .ok r) :
    ∃ d s₁ q, (draft c source).on s = (.ok d, s₁) ∧ s₁.files = s.files ∧
      s.files.isFile c.sourcePath = .ok true ∧ s.files.place c.projectPath = .ok q ∧
      s.files.node? q = some .directory ∧ Store.Fits s.files.currentPath c.outputPath ∧
      s.files.Vacant q c.outputNames c.outputName := by
  obtain ⟨log, hrun⟩ := on_generate c source s
  rcases hd : (draft c source).on s with ⟨e | d, s₁⟩
  · simp [hrun, hd] at hr
  · have h₁ := files_of_draft hsame hd
    obtain ⟨hm, -⟩ := preconditions_of_draft hd
    obtain ⟨q, hq, hdir⟩ := exists_project hc hs hm
    rcases hw : (write c d.definition.render).on s₁ with ⟨e | n, s₂⟩
    · simp [hrun, hd, hw] at hr
    · obtain ⟨hfits, hv⟩ := vacant_of_write hdry hc (h₁ ▸ hs) (h₁ ▸ hq) (h₁ ▸ hdir)
        (congrArg Prod.fst hw)
      exact ⟨d, s₁, q, rfl, h₁, hm, hq, hdir, h₁ ▸ hfits, h₁ ▸ hv⟩

/-- **To generate once more changes nothing.** Where a run that may overwrite has succeeded, with
the classes of its casts all looked up below the application's directory and none of them in the
output's place, and the system answers for the sources of them all when it is through, the next one
succeeds with the same report, and all files and directories are as the first one left them. -/
theorem generate_again (hc : c.Accepted) (hs : s.files.WellFormed) (hforce : c.force = true)
    (hdry : c.dryRun = false) (ho : c.outputPath ≠ c.sourcePath)
    (hr : ((generate c source).on s).1 = .ok r)
    (hs' : s'.files = ((generate c source).on s).2.files) (hsame : source.Same s.files s'.files)
    (hlook : ∀ column descriptor, r.casts.get? column = some descriptor →
      descriptor.toList.head? = some '\\' →
      ∀ m, Visits (findings s.files c.projectPath) descriptor m →
        Confined m ∧ sourcePath? c.projectPath m ≠ some c.outputPath ∧
          ¬Refused s'.files c.projectPath m) :
    ((generate c source).on s').1 = .ok r ∧
      ((generate c source).on s').2.files.current = s'.files.current ∧
      ∀ q, ((generate c source).on s').2.files.node? q = s'.files.node? q := by
  have hchecked := hc.checked
  obtain ⟨d, s₁, q, hd, h₁, hm, hq, hdir, hfits, hv⟩ :=
    draft_of_generate_eq_ok hdry hchecked hs hsame hr
  have hreach := reaches_output hchecked hq hdir
  obtain ⟨hr', hplaced⟩ := generate_of_vacant hdry hchecked hs hq hdir hd h₁ hfits hv
  rw [← hs'] at hplaced
  obtain rfl := Except.ok.inj (hr.symm.trans hr')
  -- The model and the classes are read as before.
  have hmodel := reaches_source hchecked hq hdir
  have hnames : c.sourceNames ≠ c.outputNames ++ [c.outputName] :=
    fun he => ho (hchecked.outputPath_eq_sourcePath_iff.mpr he.symm)
  have htypes (column descriptor : String) (hcast : d.model.casts.get? column = some descriptor) :
      typeBy (Resolver.fresh s'.files c.projectPath) descriptor =
        typeBy (Resolver.fresh s.files c.projectPath) descriptor := by
    refine typeBy_congr fun hhead => Resolver.fresh_congr fun m hvisit => ?_
    obtain ⟨hconfined, hne, hanswer⟩ := hlook column descriptor hcast hhead m hvisit
    rw [hchecked.outputPath_eq_append] at hne
    exact findings_eq_of_placed hplaced hv hs hq hdir hconfined hne hanswer
  have hpath := hreach.child hchecked.outputName_ne
  rw [← hchecked.outputPath_eq] at hpath
  have hanswer : ¬s'.files.Refuses c.outputPath := by
    rw [Refuses, hplaced.place hv hpath hfits.path]
    simp
  obtain ⟨s₁', hd', h₁'⟩ := draft_again hsame hd hforce
    (hplaced.isFile_ok hv hs hmodel hnames) hanswer
    (fun _ => hplaced.read_ok hv hs hmodel hnames) htypes
  -- The second time the class is put where it stands.
  have hs'' := hplaced.wellFormed hv hs hdir
  have hq' := place_mono hplaced.current (fun _ => hplaced.keeps hv) hq
  have hfits' : Store.Fits s'.files.currentPath c.outputPath := by
    rwa [currentPath, hplaced.current]
  obtain ⟨hr'', hplaced'⟩ := generate_of_vacant hdry hchecked hs'' hq' (hplaced.keeps hv hdir) hd'
    h₁' hfits' hplaced.vacant
  exact ⟨hr'', hplaced'.current, hplaced.node?_again hplaced'⟩

/-- In the small project the second run gives the report of the first. -/
theorem generate_again_user :
    let c := { userSettings with force := true }
    let files := ((generate c userColumns).on ⟨userFiles, [], .ofNat 0⟩).2.files
    ∃ r, ((generate c userColumns).on ⟨userFiles, [], .ofNat 0⟩).1 = .ok r ∧
      ((generate c userColumns).on ⟨files, [], .ofNat 1⟩).1 = .ok r := by
  intro c files
  have hc : c.Accepted := userSettings_force_accepted
  have hcasts : ((generate c userColumns).on ⟨userFiles, [], .ofNat 0⟩).1.toOption.map
      (·.casts.entries) = some [("a", "\\App\\A")] := by decide +kernel
  have hfinding : findings userFiles c.projectPath (ClassName.bare "\\App\\A") = .type none := by
    decide +kernel
  have hanswer : ¬Refused files c.projectPath (ClassName.bare "\\App\\A") := by decide +kernel
  rcases hr : ((generate c userColumns).on ⟨userFiles, [], .ofNat 0⟩).1 with e | r
  · rw [hr] at hcasts
    cases hcasts
  · rw [hr] at hcasts
    have hentries : r.casts.entries = [("a", "\\App\\A")] := Option.some.inj hcasts
    have hagain (t : FileTree) (ht : t = files)
        (hanswer : ¬Refused t c.projectPath (ClassName.bare "\\App\\A")) :
        ((generate c userColumns).on ⟨t, [], .ofNat 1⟩).1 = .ok r := by
      have hfiles : (Session.mk t [] (.ofNat 1)).files = files := ht
      refine (generate_again hc userFiles_wellFormed rfl rfl (by decide) hr hfiles
        (columnsIn_same _ _ _) fun column descriptor hcast _ m hm => ?_).1
      have hmem := OrderedMap.get?_eq_some_iff.mp hcast
      rw [hentries, List.mem_singleton, Prod.mk.injEq] at hmem
      obtain ⟨-, rfl⟩ := hmem
      cases hm with
      | here => exact ⟨by decide +kernel, by decide +kernel, hanswer⟩
      | later hl => exact absurd (hfinding.symm.trans hl) (by simp)
    exact ⟨r, rfl, hagain files rfl hanswer⟩

/-- The small project with a cast to a class whose name leads through the output's directory. -/
def detourFiles : FileTree where
  current := []
  nodes := OrderedMap.ofList [(["p"], .directory), (["p", "app"], .directory),
    (["p", "app", "Casts"], .directory), (["p", "app", "Casts", "A.php"], castNode),
    (["p", "app", "Models"], .directory),
    (["p", "app", "Models", "User.php"], .file (Text.Utf8.encode
      "<?php class User \x7b protected $casts = ['a' => '\\App\\Entities\\..\\Casts\\A']; \x7d".toList))]

/-- The class is found once the first run has made that directory. -/
theorem generate_again_detour :
    let c := { userSettings with force := true }
    let files := ((generate c userColumns).on ⟨detourFiles, [], .ofNat 0⟩).2.files
    c.Accepted ∧ detourFiles.WellFormed ∧ c.outputPath ≠ c.sourcePath ∧
      (∀ m, Visits (findings detourFiles c.projectPath) "\\App\\Entities\\..\\Casts\\A" m →
        sourcePath? c.projectPath m ≠ some c.outputPath) ∧
      ((generate c userColumns).on ⟨detourFiles, [], .ofNat 0⟩).1.toOption.map
          (·.columnTypes.entries) = some [("a", "string")] ∧
      ((generate c userColumns).on ⟨files, [], .ofNat 0⟩).1.toOption.map
          (·.columnTypes.entries) = some [("a", "int")] := by
  intro c files
  have hfinding : findings detourFiles c.projectPath
      (ClassName.bare "\\App\\Entities\\..\\Casts\\A") = .type none := by decide +kernel
  have hlook (m : String)
      (hm : Visits (findings detourFiles c.projectPath) "\\App\\Entities\\..\\Casts\\A" m) :
      sourcePath? c.projectPath m ≠ some c.outputPath := by
    cases hm with
    | here => decide +kernel
    | later hl => exact absurd (hfinding.symm.trans hl) (by simp)
  have hruns : ((generate c userColumns).on ⟨detourFiles, [], .ofNat 0⟩).1.toOption.map
        (·.columnTypes.entries) = some [("a", "string")] ∧
      ((generate c userColumns).on ⟨files, [], .ofNat 0⟩).1.toOption.map
        (·.columnTypes.entries) = some [("a", "int")] := by decide +kernel
  exact ⟨userSettings_force_accepted, by decide +kernel, by decide, hlook, hruns⟩

end Generate

end EloquentEntity

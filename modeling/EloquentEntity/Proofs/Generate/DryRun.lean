import EloquentEntity.Proofs.Generate.Steps

/-!
A dry run tells what the run itself would do.

Only the preconditions and the writing know of the mode. What lies between them reads the settings
and the files alone, so that both modes come to the same draft; and the report of a draft depends
on the mode in its mark and in the words of its last step.
-/

namespace EloquentEntity

/-- The reports tell the same, apart from the mode and the account of the steps. -/
def Report.Alike (r r' : Report) : Prop :=
  r' = { r with dryRun := r'.dryRun, steps := r'.steps }

lemma Report.Alike.content_eq {r r' : Report} (h : r.Alike r') : r'.content = r.content := by
  rw [Report.Alike] at h
  rw [h]

namespace Generate

open FileTree Procedure

variable {c : Settings} {source source' : ColumnSource} {s s' : Session}

/-! ### Between the preconditions and the writing -/

def ColumnSource.Agrees (source source' : ColumnSource) (t : FileTree) : Prop :=
  ∀ (table : String) (s s' : Session), s.files = t → s'.files = t →
    ((source table).on s).1 = ((source' table).on s').1

lemma determined_databaseUrl (c : Settings) (process : Database.Environment) :
    Determined (databaseUrl c process) := by
  refine .bind .files fun t => .bind (.noteAll _) fun _ => .bind (.mapError _ (.ofExcept _)) ?_
  rintro (_ | url)
  · exact .throw _
  · dsimp only
    split
    · exact .throw _
    · exact .pure _

lemma determined_shownUrl (url : String) : Determined (Database.shownUrl url) :=
  .mapError _ (.ofExcept _)

lemma determined_columns (url table : String) :
    Determined ((Database.TableSource.url url).columns table) := by
  refine .bind (.bind .files fun t => ?_) fun engine => .bind .files fun t => ?_
  · rcases Database.engineOf t.currentPath url with (fault | e | _) | engine
    · exact .bind (determined_shownUrl url) fun _ => .throw _
    · exact .throw _
    · exact .throw _
    · exact .pure _
  · refine .bind (.ofExcept _) fun ⟨tables, t⟩ => .bind (.change _) fun _ => ?_
    exact .bind (.mapError _ (.ofExcept _)) fun _ => .bind (.note _) fun _ => .pure _

/-- The database of a project gives the same answers in both modes. -/
lemma columnsOfProject_agrees (c : Settings) (process : Database.Environment)
    (force dryRun : Bool) (t : FileTree) :
    ColumnSource.Agrees (columnsOfProject c process)
      (columnsOfProject { c with force, dryRun } process) t := by
  intro table s s' hs hs'
  have h : Determined (columnsOfProject c process table) :=
    .bind (determined_databaseUrl c process) fun url =>
      .bind (.mapError _ (determined_shownUrl url)) fun _ => .bind (.note _) fun _ =>
        .mapError _ (determined_columns url table)
  exact (h s s' (hs'.trans hs.symm)).1

def inspect (c : Settings) (source : ColumnSource) : Procedure Failure Draft := do
  let model ← timed "parse model" (parseModel c)
  let types ← timed "resolve types" (resolveTypes c model.casts)
  let (table, columns) ← timed "read columns" (readColumns c source model.root)
  let definition ← timed "render" (render c columns types)
  return { model, types, table, columns, definition }

lemma draft_eq (c : Settings) (source : ColumnSource) :
    draft c source = (do checkPreconditions c; inspect c source) := rfl

lemma inspect_mode (c : Settings) (force dryRun : Bool) (source : ColumnSource) :
    inspect { c with force, dryRun } source = inspect c source := by
  rw [inspect]
  rfl

lemma determined_parseModel (c : Settings) : Determined (parseModel c) := by
  refine .bind (.note _) fun _ => .bind .files fun files => .bind (.mapError _ (.ofExcept _)) ?_
  intro text
  cases Syntax.parse text with
  | none => exact .throw _
  | some root => exact .bind (.note _) fun _ => .bind (.note _) fun _ => .pure _

lemma determined_resolveTypes (c : Settings) (casts : CastMap) :
    Determined (resolveTypes c casts) :=
  .bind .files fun _ => .bind (.noteAll _) fun _ => .mapError _ (.ofExcept _)

lemma fst_readColumns (c : Settings) (root : Syntax.Tree) (h : source.Agrees source' s.files)
    (hs : s'.files = s.files) :
    ((readColumns c source root).on s).1 = ((readColumns c source' root).on s').1 :=
  on_bind_fst rfl fun _ => on_bind_fst (h _ _ _ rfl hs) fun _ => rfl

lemma fst_render (c : Settings) (columns : List String) (types : ColumnTypes) (s s' : Session) :
    ((render c columns types).on s).1 = ((render c columns types).on s').1 := by
  refine on_bind_fst ?_ fun _ => rfl
  rw [on_mapError, on_mapError, on_ofExcept, on_ofExcept]

/-- An inspection comes to the same on the same files, whatever the log tells. -/
lemma fst_inspect (c : Settings) (h : source.Agrees source' s.files) (hs : s'.files = s.files) :
    ((inspect c source).on s).1 = ((inspect c source').on s').1 := by
  have hparse := (determined_parseModel c).timed "parse model"
  have hresolve (casts : CastMap) := (determined_resolveTypes c casts).timed "resolve types"
  have hparsed (s : Session) := (leavesFiles_parseModel c).timed "parse model" s
  have hresolved (casts : CastMap) (s : Session) :=
    (leavesFiles_resolveTypes c casts).timed "resolve types" s
  refine on_bind_fst (hparse _ _ hs).1 fun model => ?_
  obtain ⟨htypes, hs⟩ := hresolve model.casts _ _ (hparse _ _ hs).2
  refine on_bind_fst htypes fun types => ?_
  refine on_bind_fst (on_timed_fst _ (fst_readColumns c _ ?_ hs)) fun ⟨_, _⟩ => ?_
  · rw [hresolved, hparsed]
    exact h
  · refine on_bind_fst (on_timed_fst _ (fst_render ..)) fun _ => ?_
    rw [on_pure, on_pure]

/-- There is a draft where the preconditions hold and the inspection succeeds. -/
lemma draft_eq_ok_iff {d : Draft} :
    ((draft c source).on s).1 = .ok d ↔
      (s.files.isFile c.sourcePath = .ok true ∧ ¬s.files.Refuses c.outputPath ∧
        ¬(s.files.isFile c.outputPath = .ok true ∧ c.force = false ∧ c.dryRun = false)) ∧
      ((inspect c source).on s).1 = .ok d := by
  rw [draft_eq, on_bind, ← checkPreconditions_eq_ok_iff]
  rcases hpre : (checkPreconditions c).on s with ⟨e | _, s₁⟩
  · simp
  · obtain rfl : s₁ = s := by rw [← snd_checkPreconditions c s, hpre]
    simp

/-! ### Both modes -/

lemma draft_of_generate {r : Report} (h : ((generate c source).on s).1 = .ok r) :
    ∃ d n, ((draft c source).on s).1 = .ok d ∧ r = d.report c n := by
  obtain ⟨log, hrun⟩ := on_generate c source s
  rw [hrun] at h
  rcases hd : (draft c source).on s with ⟨e | d, s₁⟩
  · simp [hd] at h
  · rcases hw : (write c d.definition.render).on s₁ with ⟨e | n, s₂⟩
    · simp [hd, hw] at h
    · exact ⟨d, n, rfl, by simpa [hd, hw] using h.symm⟩

/-- A draft is written, or there is a run that does write and cannot. -/
lemma generate_of_draft {d : Draft} (h : ((draft c source).on s).1 = .ok d) :
    (((generate c source).on s).1 =
          .ok (d.report c (Text.Utf8.encode d.definition.render.toList).length) ∧
        (c.dryRun = false → ((generate c source).on s).2.files.bytes c.outputPath =
          .ok (Text.Utf8.encode d.definition.render.toList))) ∨
      (c.dryRun = false ∧
        ∃ e, ((generate c source).on s).1 = .error (.refused (.unwritable c.outputPath e))) := by
  obtain ⟨log, hrun⟩ := on_generate c source s
  rcases hd : (draft c source).on s with ⟨r, s₁⟩
  rw [hd] at h
  obtain rfl : r = .ok d := h
  rcases hw : (write c d.definition.render).on s₁ with ⟨e | n, s₂⟩
  · simp only [hd, hw] at hrun
    obtain ⟨e', rfl⟩ := write_eq_error hw
    refine .inr ⟨?_, e', by rw [hrun]⟩
    by_contra hdry
    have hok := (on_write_of_dryRun (by simpa using hdry) d.definition.render s₁).1
    rw [hw] at hok
    cases hok
  · simp only [hd, hw] at hrun
    obtain ⟨rfl, hbytes⟩ := write_eq_ok hw
    exact .inl ⟨by rw [hrun], fun hdry => by rw [hrun]; exact hbytes hdry⟩

/-- **A dry run is faithful.** Where a run that writes succeeds, a dry run on the same files
succeeds with the same report, and its content is what the run has put in the output's place. Where
a dry run succeeds, the run that may overwrite succeeds with the same report, or it cannot write its
output. -/
theorem generate_dryRun (hc : c.dryRun = false) (hs : s'.files = s.files)
    (hsame : source.Agrees source' s.files) :
    (∀ r, ((generate c source).on s).1 = .ok r →
        ((generate c source).on s).2.files.bytes c.outputPath =
            .ok (Text.Utf8.encode r.content.toList) ∧
          ∃ r', ((generate { c with dryRun := true } source').on s').1 = .ok r' ∧ r.Alike r') ∧
      ∀ r', ((generate { c with dryRun := true } source').on s').1 = .ok r' →
        (∃ r, ((generate { c with force := true } source).on s).1 = .ok r ∧ r.Alike r') ∨
          ∃ e, ((generate { c with force := true } source).on s).1 =
            .error (.refused (.unwritable c.outputPath e)) := by
  have hinspect := fst_inspect c hsame hs
  constructor
  · -- From the run that writes to the one on trial.
    intro r hr
    obtain ⟨d, n, hd, rfl⟩ := draft_of_generate hr
    obtain ⟨⟨hm, ho, -⟩, hi⟩ := draft_eq_ok_iff.mp hd
    have hd' : ((draft { c with dryRun := true } source').on s').1 = .ok d :=
      draft_eq_ok_iff.mpr ⟨⟨by rw [hs]; exact hm, by rw [hs]; exact ho, by simp⟩,
        by rw [inspect_mode c c.force true, ← hinspect]; exact hi⟩
    rcases generate_of_draft hd with ⟨hok, hbytes⟩ | ⟨-, e, he⟩
    · rcases generate_of_draft hd' with ⟨hok', -⟩ | ⟨hdry, -⟩
      · obtain hn := Except.ok.inj (hr.symm.trans hok)
        refine ⟨hbytes hc, _, hok', ?_⟩
        rw [hn]
        rfl
      · cases hdry
    · rw [hr] at he
      cases he
  · -- And back, with leave to overwrite.
    intro r' hr'
    obtain ⟨d, n, hd', rfl⟩ := draft_of_generate hr'
    obtain ⟨⟨hm, ho, -⟩, hi⟩ := draft_eq_ok_iff.mp hd'
    have hd : ((draft { c with force := true } source).on s).1 = .ok d :=
      draft_eq_ok_iff.mpr ⟨⟨by rw [← hs]; exact hm, by rw [← hs]; exact ho, by simp⟩,
        by rw [inspect_mode c true c.dryRun, hinspect]; exact hi⟩
    rcases generate_of_draft hd with ⟨hok, -⟩ | ⟨-, e, he⟩
    · rcases generate_of_draft hd' with ⟨hok', -⟩ | ⟨hdry, -⟩
      · refine .inl ⟨_, hok, ?_⟩
        rw [Except.ok.inj (hr'.symm.trans hok')]
        rfl
      · cases hdry
    · exact .inr ⟨e, he⟩

/-- In the small project with a database, the dry run shows the text that the run writes. -/
theorem generate_dryRun_user :
    let c := { userSettings with databaseUrl := some "sqlite:////p/users.db" }
    let s : Session :=
      ⟨userFiles.set ["p", "users.db"] (.database [("users", ["id", "a"])]), [], .ofNat 0⟩
    ∃ r r', ((generate c (columnsOfProject c [])).on s).1 = .ok r ∧
      ((generate { c with dryRun := true }
        (columnsOfProject { c with dryRun := true } [])).on s).1 = .ok r' ∧
      r'.content = r.content := by
  intro c s
  have hok : ((generate c (columnsOfProject c [])).on s).1.isOk = true := by decide +kernel
  rcases hr : ((generate c (columnsOfProject c [])).on s).1 with e | r
  · rw [hr] at hok
    cases hok
  · have hc : c.dryRun = false := rfl
    have hs : s.files = s.files := rfl
    obtain ⟨-, r', hr', halike⟩ :=
      (generate_dryRun hc hs (columnsOfProject_agrees c [] false true s.files)).1 r hr
    exact ⟨r, r', rfl, hr', halike.content_eq⟩

end Generate

end EloquentEntity

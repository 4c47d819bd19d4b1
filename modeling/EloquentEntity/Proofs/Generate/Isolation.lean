import EloquentEntity.Proofs.Casts.Resolver
import EloquentEntity.Proofs.Entity.Definition
import EloquentEntity.Proofs.Generate.Steps

/-!
What a change to one file can do to a run.

Two trees that differ in one file have the same directories, so paths lead to the same places in
both. A class is looked up at one place; the chain of a class never meets the difference unless it
looks up that file.
-/

namespace EloquentEntity

namespace FileTree

/-- The trees have the same nodes save at `f`, where neither has a directory. -/
structure DifferOnlyAt (t t' : FileTree) (f : List String) : Prop where
  current : t'.current = t.current
  other : ∀ q, q ≠ f → t'.node? q = t.node? q
  noDirectory : t.node? f ≠ some .directory
  noDirectory' : t'.node? f ≠ some .directory

variable {t t' : FileTree} {f q r xs : List String} {x : String} {p : Path}

namespace DifferOnlyAt

lemma set {n : FileNode} (hf : t.node? f ≠ some .directory) (hn : n ≠ .directory) :
    t.DifferOnlyAt (t.set f n) f where
  current := rfl
  other := fun q hq => by
    rcases eq_or_ne f [] with rfl | hne
    · exact absurd (node?_nil t) hf
    · rw [node?_set hne, if_neg hq]
  noDirectory := hf
  noDirectory' := by
    rcases eq_or_ne f [] with rfl | hne
    · exact absurd (node?_nil t) hf
    · simpa [node?_set hne] using hn

lemma symm (h : t.DifferOnlyAt t' f) : t'.DifferOnlyAt t f :=
  ⟨h.current.symm, fun q hq => (h.other q hq).symm, h.noDirectory', h.noDirectory⟩

lemma directory (h : t.DifferOnlyAt t' f) (hq : t.node? q = some .directory) :
    t'.node? q = some .directory := by
  have hne : q ≠ f := by
    rintro rfl
    exact h.noDirectory hq
  rw [h.other q hne, hq]

lemma place (h : t.DifferOnlyAt t' f) (hp : t.place p = .ok q) : t'.place p = .ok q :=
  place_mono h.current (fun _ => h.directory) hp

lemma place?_eq (h : t.DifferOnlyAt t' f) (p : Path) : t'.place? p = t.place? p := by
  ext q
  rw [place?_eq_some_iff, place?_eq_some_iff]
  exact ⟨h.symm.place, h.place⟩

/-- What stands at the end of a path to another place. -/
lemma bind_node?_eq (h : t.DifferOnlyAt t' f) (hf : t.place? p ≠ some f) :
    (t'.place? p).bind t'.node? = (t.place? p).bind t.node? := by
  rw [h.place?_eq]
  rcases hp : t.place? p with _ | q
  · rfl
  · exact h.other q fun he => hf (he ▸ hp)

lemma place?_ne (hf : f ≠ t.locate p) : t.place? p ≠ some f := by
  intro h
  exact hf (place_eq_locate (place?_eq_some_iff.mp h))

lemma refuses (h : t.DifferOnlyAt t' f) (hp : t.Refuses p) : t'.Refuses p :=
  refuses_mono h.current (fun _ => h.directory) hp

lemma refuses_iff (h : t.DifferOnlyAt t' f) : t'.Refuses p ↔ t.Refuses p :=
  ⟨h.symm.refuses, h.refuses⟩

lemma isFile_eq (h : t.DifferOnlyAt t' f) (hf : f ≠ t.locate p) : t'.isFile p = t.isFile p := by
  by_cases hp : t.Refuses p
  · rw [isFile_of_refuses hp, isFile_of_refuses (h.refuses hp)]
  · rw [isFile_of_not_refuses hp, isFile_of_not_refuses (mt h.refuses_iff.mp hp),
      FileTree.at?_eq, FileTree.at?_eq, h.bind_node?_eq (place?_ne hf)]

lemma read_ok (h : t.DifferOnlyAt t' f) (hf : f ≠ t.locate p) {text : String}
    (hr : t.read p = .ok text) : t'.read p = .ok text := by
  have ht : (t'.read p).toOption = some text := by
    rw [toOption_read, h.bind_node?_eq (place?_ne hf), ← toOption_read, hr]
    rfl
  rcases hr' : t'.read p with e | text'
  · simp [hr', Except.toOption] at ht
  · simpa [hr', Except.toOption] using ht

/-- A place stays vacant where the difference is neither the place nor above it. -/
lemma vacant (h : t.DifferOnlyAt t' f) (hf : ¬f <+: q ++ xs ++ [x]) (hv : t.Vacant q xs x) :
    t'.Vacant q xs x := by
  refine ⟨fun zs n hz hn => ?_, ?_⟩
  · rw [h.other] at hn
    · exact hv.1 zs n hz hn
    · rintro rfl
      rw [List.append_assoc] at hf
      exact hf ((List.prefix_append_right_inj q).mpr (hz.trans (List.prefix_append _ _)))
  · rw [h.other]
    · exact hv.2
    · rintro rfl
      exact hf (List.prefix_refl _)

end DifferOnlyAt

end FileTree

namespace Casts

variable {t t' : FileTree} {f : List String} {root : Path} {name : String}

lemma sourcePlace?_eq (h : t.DifferOnlyAt t' f) (root : Path) (name : String) :
    sourcePlace? t' root name = sourcePlace? t root name := by
  rw [sourcePlace?, sourcePlace?]
  congr 1
  funext p
  exact h.place?_eq p

/-- The classes on the chain of a name are looked up at other places. -/
def Avoids (t : FileTree) (root : Path) (f : List String) (name : String) : Prop :=
  ∀ m, Visits (findings t root) name m → sourcePlace? t root m ≠ some f

lemma refused_iff (h : t.DifferOnlyAt t' f) : Refused t' root name ↔ Refused t root name := by
  simp only [Refused, h.refuses_iff]

lemma findings_eq_of_ne (h : t.DifferOnlyAt t' f) (hf : sourcePlace? t root name ≠ some f) :
    findings t' root name = findings t root name := by
  by_cases hr : Refused t root name
  · obtain ⟨p, hp, hfound⟩ := findings_of_refused hr
    obtain ⟨p', hp', hfound'⟩ := findings_of_refused ((refused_iff h).mpr hr)
    obtain rfl := Option.some.inj (hp'.symm.trans hp)
    rw [hfound, hfound']
  rw [findings_eq hr, findings_eq (mt (refused_iff h).mp hr), sourcePlace?_eq h]
  rcases hq : sourcePlace? t root name with _ | q
  · rfl
  · rw [Option.bind_some, Option.bind_some, h.other q fun he => hf (he ▸ hq)]

/-- A descriptor that names no class, or one whose chain avoids the difference, gives one type. -/
lemma typeBy_fresh_eq (h : t.DifferOnlyAt t' f) {descriptor : String}
    (ha : descriptor.toList.head? = some '\\' → Avoids t root f descriptor) :
    typeBy (Resolver.fresh t' root) descriptor = typeBy (Resolver.fresh t root) descriptor :=
  typeBy_congr fun hd => Resolver.fresh_congr fun m hm => findings_eq_of_ne h (ha hd m hm)

end Casts

namespace EntityDefinition

variable {columns : List String} {types : OrderedMap String String} {ns name : String}
  {base : BaseClass} {d : EntityDefinition}

/-- With other types for its columns the class is made all the same, with the same names. -/
lemma build_again (h : build ns name columns types base = .ok d)
    (types' : OrderedMap String String) :
    ∃ d', build ns name columns types' base = .ok d' ∧
      List.Forall₂ (fun f f' => f'.name = f.name ∧ f.type = columnType types f.name ∧
        f'.type = columnType types' f.name) d.properties d'.properties := by
  obtain ⟨hns, hname, hbase, hfields, -⟩ := build_eq_ok_iff.mp h
  obtain ⟨hnames, htypes⟩ := fieldsOf_eq_ok_iff.mp hfields
  let again (f : EntityField) : EntityField :=
    ⟨f.name, columnType types' f.name, f.name_ne, columnType_ne types' f.name⟩
  let fields := d.properties.map again
  have hfields' : fieldsOf columns types' = .ok fields := by
    refine fieldsOf_eq_ok_iff.mpr
      ⟨by simpa [fields, again, Function.comp_def] using hnames, fun g hg => ?_⟩
    obtain ⟨f, -, rfl⟩ := List.mem_map.mp hg
    rfl
  refine ⟨{ d with properties := fields, imports := importLines fields base },
    build_eq_ok_iff.mpr ⟨hns, hname, hbase, hfields', rfl⟩, ?_⟩
  exact List.forall₂_map_right_iff.mpr
    (List.forall₂_same.mpr fun f hf => ⟨rfl, htypes f hf, rfl⟩)

lemma columnType_mapValues_eq {casts : CastMap} {g g' : String → String}
    (h : ∀ descriptor, casts.get? name = some descriptor → g' descriptor = g descriptor) :
    columnType (casts.mapValues g') name = columnType (casts.mapValues g) name := by
  rw [columnType, columnType, OrderedMap.get?_mapValues, OrderedMap.get?_mapValues]
  rcases hn : casts.get? name with _ | descriptor
  · rfl
  · rw [Option.map_some, Option.map_some, h descriptor hn]

end EntityDefinition

namespace Generate

open FileTree Procedure

variable {c : Settings} {source : ColumnSource} {s s' : Session} {t t' : FileTree}
  {f : List String}

/-- The preconditions still hold where the model is there and no output has come in the way. -/
lemma follows_checkPreconditions
    (hm : t.isFile c.sourcePath = .ok true → t'.isFile c.sourcePath = .ok true)
    (hr : t'.Refuses c.outputPath → t.Refuses c.outputPath)
    (ho : t'.isFile c.outputPath = .ok true → c.force = false → t.isFile c.outputPath = .ok true) :
    Follows t t' Eq (checkPreconditions c) (checkPreconditions c) := by
  intro s s' a s₁ hs hs' hp
  subst hs hs'
  obtain ⟨hmodel, hanswer, hout⟩ := checkPreconditions_eq_ok_iff.mp (congrArg Prod.fst hp)
  have hp' : ((checkPreconditions c).on s').1 = .ok () :=
    checkPreconditions_eq_ok_iff.mpr
      ⟨hm hmodel, fun h => hanswer (hr h), fun h => hout ⟨ho h.1 h.2.1, h.2⟩⟩
  refine ⟨(leavesFiles_checkPreconditions c).files_eq hp, (), s', ?_, rfl, rfl⟩
  exact Prod.ext hp' (snd_checkPreconditions c s')

lemma follows_parseModel
    (hm : ∀ text, t.read c.sourcePath = .ok text → t'.read c.sourcePath = .ok text) :
    Follows t t' Eq (parseModel c) (parseModel c) := by
  refine .bind (.noteAll _ _) fun _ _ _ => .bind .files fun u u' hu =>
    .bind (R := Eq) (.mapError _ _ (.ofExcept fun text ht => ⟨text, ?_, rfl⟩)) ?_
  · obtain ⟨rfl, rfl⟩ := hu
    exact hm text ht
  · rintro text _ rfl
    cases Syntax.parse text with
    | none => exact fun _ _ _ _ _ _ hp => by cases hp
    | some root =>
      exact .bind (.noteAll _ _) fun _ _ _ => .bind (.noteAll _ _) fun _ _ _ => .pure rfl

/-- The types of columns in two trees, where there are types in the second. -/
lemma follows_resolveTypes (c : Settings) {casts : CastMap}
    (h : ¬Casts.Stuck t' c.projectPath casts) :
    Follows t t' (fun types types' =>
        Casts.columnTypes (m := Except FileError) (Casts.Resolver.fresh t c.projectPath) casts =
          .ok types ∧
        Casts.columnTypes (m := Except FileError) (Casts.Resolver.fresh t' c.projectPath) casts =
          .ok types')
      (resolveTypes c casts) (resolveTypes c casts) := by
  intro s s' types s₁ hs hs' hp
  subst hs hs'
  obtain ⟨types', htypes'⟩ := Casts.exists_columnTypes_fresh_iff.mpr h
  have htypes := Casts.fst_resolveTypes c casts s
  have hp' := Casts.fst_resolveTypes c casts s'
  rw [htypes'] at hp'
  rw [hp] at htypes
  refine ⟨(leavesFiles_resolveTypes c casts).files_eq hp, types', _, Prod.ext hp' rfl, ⟨?_, htypes'⟩,
    leavesFiles_resolveTypes c casts s'⟩
  rcases ht : Casts.columnTypes (m := Except FileError)
    (Casts.Resolver.fresh s.files c.projectPath) casts with e | types₁
  · rw [ht] at htypes
    cases htypes
  · rw [ht] at htypes
    exact congrArg Except.ok (Except.ok.inj htypes).symm

/-- The types of a draft are those that fresh resolvers give. -/
lemma columnTypes_of_draft {d : Draft} (hd : ((draft c source).on s).1 = .ok d) :
    Casts.columnTypes (m := Except FileError) (Casts.Resolver.fresh s.files c.projectPath)
      d.model.casts = .ok d.types := by
  rcases hdraft : (draft c source).on s with ⟨r, s₁⟩
  rw [hdraft] at hd
  obtain rfl : r = .ok d := hd
  obtain ⟨s₂, s₃, s₄, -, hpre, hparse, hresolve, -⟩ := on_draft_eq_ok_iff.mp hdraft
  have h₂ := (leavesFiles_checkPreconditions c).files_eq hpre
  have h₃ := ((leavesFiles_parseModel c).timed "parse model").files_eq hparse
  have htypes := Casts.fst_resolveTypes c d.model.casts s₃
  rw [h₃.trans h₂] at htypes
  rw [on_timed, Prod.mk.injEq] at hresolve
  rw [hresolve.1] at htypes
  rcases ht : Casts.columnTypes (m := Except FileError)
    (Casts.Resolver.fresh s.files c.projectPath) d.model.casts with e | types
  · rw [ht] at htypes
    cases htypes
  · rw [ht] at htypes
    exact congrArg Except.ok (Except.ok.inj htypes).symm

/-- A source that gives the same columns in both trees and leaves either as it is. -/
def ColumnSource.Same (source : ColumnSource) (t t' : FileTree) : Prop :=
  ∀ table, Follows t t' Eq (source table) (source table)

lemma columnsIn_same (tables : List Database.Table) (t t' : FileTree) :
    ColumnSource.Same (columnsIn tables) t t' := by
  intro table
  rw [columnsIn]
  cases tables.lookup table with
  | none => exact fun _ _ _ _ _ _ hp => by cases hp
  | some columns => exact .pure rfl

/-- Two properties of one column: of one name, and of one type unless the chain of a cast class
looks up the file. -/
def Matches (t : FileTree) (root : Path) (f : List String) (casts : CastMap)
    (g g' : EntityField) : Prop :=
  g'.name = g.name ∧
    ((∀ descriptor, casts.get? g.name = some descriptor → descriptor.toList.head? = some '\\' →
      Casts.Avoids t root f descriptor) → g'.type = g.type)

lemma follows_readColumns (hsame : source.Same t t') (c : Settings) (root : Syntax.Tree) :
    Follows t t' Eq (readColumns c source root) (readColumns c source root) := by
  refine .bind (.noteAll _ _) fun _ _ _ => .bind (hsame _) ?_
  rintro columns _ rfl
  exact .pure rfl

/-- A column without a cast class that looks up the file has one type in both trees. -/
lemma columnType_eq_of_avoids (h : t.DifferOnlyAt t' f) {root : Path} {casts : CastMap}
    {types types' : ColumnTypes} {name : String}
    (ht : Casts.columnTypes (m := Except FileError) (Casts.Resolver.fresh t root) casts = .ok types)
    (ht' : Casts.columnTypes (m := Except FileError) (Casts.Resolver.fresh t' root) casts =
      .ok types')
    (ha : ∀ descriptor, casts.get? name = some descriptor → descriptor.toList.head? = some '\\' →
      Casts.Avoids t root f descriptor) :
    EntityDefinition.columnType types' name = EntityDefinition.columnType types name := by
  obtain ⟨g, hg, rfl⟩ := Casts.columnTypes_eq_ok_iff.mp ht
  obtain ⟨g', hg', rfl⟩ := Casts.columnTypes_eq_ok_iff.mp ht'
  refine EntityDefinition.columnType_mapValues_eq fun descriptor hcast => ?_
  have hentry := OrderedMap.get?_eq_some_iff.mp hcast
  have hsame := Casts.typeBy_fresh_eq h (ha descriptor hcast)
  exact Except.ok.inj ((hg' _ hentry).symm.trans (hsame.trans (hg _ hentry)))

lemma follows_render (h : t.DifferOnlyAt t' f) (c : Settings) {casts : CastMap}
    (columns : List String) {types types' : ColumnTypes}
    (ht : Casts.columnTypes (m := Except FileError) (Casts.Resolver.fresh t c.projectPath) casts =
      .ok types)
    (ht' : Casts.columnTypes (m := Except FileError) (Casts.Resolver.fresh t' c.projectPath) casts =
      .ok types') :
    Follows t t' (fun d d' => List.Forall₂ (Matches t c.projectPath f casts) d.properties
        d'.properties)
      (render c columns types) (render c columns types') := by
  refine .bind (.mapError _ _ (.ofExcept fun d hd => ?_)) fun d d' hd =>
    .bind (.noteAll _ _) fun _ _ _ => .pure hd
  obtain ⟨d', hd', hall⟩ := EntityDefinition.build_again hd types'
  refine ⟨d', hd', hall.imp ?_⟩
  rintro g g' ⟨hname, htype, htype'⟩
  refine ⟨hname, fun havoid => ?_⟩
  rw [htype', htype]
  exact columnType_eq_of_avoids h ht ht' havoid

/-- The steps up to the model, in the second tree. -/
lemma exists_model (h : s.files.DifferOnlyAt s'.files f) (hm : f ≠ s.files.locate c.sourcePath)
    (ho : f ≠ s.files.locate c.outputPath) {model : Model} {s₁ s₂ : Session}
    (hpre : (checkPreconditions c).on s = (.ok (), s₁))
    (hparse : (timed "parse model" (parseModel c)).on s₁ = (.ok model, s₂)) :
    s₂.files = s.files ∧ ∃ s₁' s₂', (checkPreconditions c).on s' = (.ok (), s₁') ∧
      (timed "parse model" (parseModel c)).on s₁' = (.ok model, s₂') ∧ s₂'.files = s'.files := by
  have hmodel := h.isFile_eq hm
  have hout := h.isFile_eq ho
  obtain ⟨h₁, _, s₁', hpre', -, h₁'⟩ := follows_checkPreconditions (fun he => hmodel.trans he)
    h.refuses_iff.mp (fun he _ => hout.symm.trans he) s s' _ s₁ rfl rfl hpre
  obtain ⟨h₂, _, s₂', hparse', rfl, h₂'⟩ :=
    (follows_parseModel fun _ => h.read_ok hm).timed "parse model" _ s₁' _ s₂ h₁ h₁' hparse
  exact ⟨h₂, s₁', s₂', hpre', hparse', h₂'⟩

/-- The draft in the second tree, where there are types in it. -/
lemma draft_isolated (h : s.files.DifferOnlyAt s'.files f) (hm : f ≠ s.files.locate c.sourcePath)
    (ho : f ≠ s.files.locate c.outputPath) (hsame : source.Same s.files s'.files) {d : Draft}
    {s₁ : Session} (hd : (draft c source).on s = (.ok d, s₁))
    (hfree : ¬Casts.Stuck s'.files c.projectPath d.model.casts) :
    s₁.files = s.files ∧ ∃ d' s₁', (draft c source).on s' = (.ok d', s₁') ∧
      s₁'.files = s'.files ∧
      List.Forall₂ (Matches s.files c.projectPath f d.model.casts) d.definition.properties
        d'.definition.properties := by
  obtain ⟨s₂, s₃, s₄, s₅, hpre, hparse, hresolve, hread, hrender⟩ := on_draft_eq_ok_iff.mp hd
  obtain ⟨h₃, s₂', s₃', hpre', hparse', h₃'⟩ := exists_model h hm ho hpre hparse
  obtain ⟨h₄, types', s₄', hresolve', ⟨ht, ht'⟩, h₄'⟩ :=
    (follows_resolveTypes c hfree).timed "resolve types" _ s₃' _ s₄ h₃ h₃' hresolve
  obtain ⟨h₅, _, s₅', hread', rfl, h₅'⟩ :=
    (follows_readColumns hsame c d.model.root).timed "read columns" _ s₄' _ s₅ h₄ h₄' hread
  obtain ⟨h₁, definition', s₁', hrender', hmatch, h₁'⟩ :=
    (follows_render h c d.columns ht ht').timed "render" _ s₅' _ s₁ h₅ h₅' hrender
  exact ⟨h₁, ⟨d.model, types', d.table, d.columns, definition'⟩, s₁', on_draft_eq_ok_iff.mpr
    ⟨s₂', s₃', s₄', s₅', hpre', hparse', hresolve', hread', hrender'⟩, h₁', hmatch⟩

/-- The run in the second tree where there are none: it fails, and no file has been touched. -/
lemma generate_of_stuck (h : s.files.DifferOnlyAt s'.files f)
    (hm : f ≠ s.files.locate c.sourcePath) (ho : f ≠ s.files.locate c.outputPath) {d : Draft}
    (hd : ((draft c source).on s).1 = .ok d)
    (hstuck : Casts.Stuck s'.files c.projectPath d.model.casts) :
    (∃ e, ((generate c source).on s').1 = .error (.fault (.unreadable (.file e)))) ∧
      ((generate c source).on s').2.files = s'.files := by
  rcases hdraft : (draft c source).on s with ⟨r, s₁⟩
  rw [hdraft] at hd
  obtain rfl : r = .ok d := hd
  obtain ⟨s₂, s₃, s₄, s₅, hpre, hparse, -⟩ := on_draft_eq_ok_iff.mp hdraft
  obtain ⟨-, s₂', s₃', hpre', hparse', h₃'⟩ := exists_model h hm ho hpre hparse
  have htypes := Casts.fst_resolveTypes c d.model.casts s₃'
  have hleaves := leavesFiles_resolveTypes c d.model.casts s₃'
  rw [h₃'] at htypes hleaves
  obtain ⟨log, hrun⟩ := on_generate c source s'
  rcases hc : Casts.columnTypes (m := Except FileError)
    (Casts.Resolver.fresh s'.files c.projectPath) d.model.casts with e | types
  · rw [hc] at htypes
    rcases hresolve : (resolveTypes c d.model.casts).on s₃' with ⟨r, s₄'⟩
    rw [hresolve] at htypes hleaves
    obtain rfl : r = .error (.fault (.unreadable (.file e))) := htypes
    have hdraft' : (draft c source).on s' = (.error (.fault (.unreadable (.file e))),
        { s₄' with log := s₄'.log ++ [.took "resolve types"] }) := by
      simp only [draft, on_bind, hpre', hparse', on_timed, hresolve]
    rw [hdraft'] at hrun
    exact ⟨⟨e, by rw [hrun]⟩, by rw [hrun]; exact hleaves⟩
  · exact absurd hstuck (Casts.exists_columnTypes_fresh_iff.mp ⟨types, hc⟩)

lemma write_again (hc : c.Checked) (hs : s.files.WellFormed) (hs' : s'.files.WellFormed)
    (h : s.files.DifferOnlyAt s'.files f) (ho : ¬f <+: s.files.locate c.outputPath)
    (hm : s.files.isFile c.sourcePath = .ok true) {text : String} {n : Nat}
    (hw : ((write c text).on s).1 = .ok n) (text' : String) :
    ∃ n', ((write c text').on s').1 = .ok n' := by
  by_cases hdry : c.dryRun = true
  · exact ⟨_, (on_write_of_dryRun hdry text' s').1⟩
  · have hdry' : c.dryRun = false := by simpa using hdry
    obtain ⟨q, hq, hd⟩ := exists_project hc hs hm
    obtain ⟨hfits, hv⟩ := vacant_of_write hdry' hc hs hq hd hw
    have hpath := (reaches_output hc hq hd).child hc.outputName_ne
    rw [← hc.outputPath_eq] at hpath
    rw [hpath.locate, ← List.append_assoc] at ho
    have hfits' : Store.Fits s'.files.currentPath c.outputPath := by
      rwa [currentPath, h.current]
    rcases on_write hdry' hc hs' (h.place hq) (h.directory hd) text' with
      ⟨-, -, t, log, hok, -⟩ | ⟨hnot, -⟩
    · exact ⟨_, by rw [hok]⟩
    · exact absurd ⟨hfits', h.vacant ho hv⟩ hnot

/-- A chain that is blocked in the second tree only looks up the file in the first. -/
lemma not_avoids_of_blocked (h : s.files.DifferOnlyAt s'.files f) {root : Path} {name : String}
    (hfree : ¬Casts.Blocked s.files root name) (hblocked : Casts.Blocked s'.files root name) :
    ¬Casts.Avoids s.files root f name := by
  intro ha
  have hfresh : Casts.Resolver.fresh s'.files root name = Casts.Resolver.fresh s.files root name :=
    Casts.Resolver.fresh_congr fun m hm => Casts.findings_eq_of_ne h (ha m hm)
  obtain ⟨t, ht⟩ := Casts.Resolver.exists_fresh_eq_ok_iff.mpr hfree
  exact Casts.Resolver.exists_fresh_eq_ok_iff.mp ⟨t, hfresh.trans ht⟩ hblocked

/-- **A cast file changes the types of the columns that look it up, and nothing else, within the
limits of the system.** Where two trees differ in one file, which is neither the model nor the
output nor above it, and a run succeeds in the first, it succeeds in the second, unless the second
file leads the chain of a cast class to one whose source the system does not answer for. Its class
then has the same properties in the same order, and those have the same types whose columns have no
cast class or one whose chain does not look up the file. If there is such a chain the run fails, and
all files are as before. -/
theorem generate_isolated (hc : c.Accepted) (hs : s.files.WellFormed) (hs' : s'.files.WellFormed)
    (h : s.files.DifferOnlyAt s'.files f) (hm : f ≠ s.files.locate c.sourcePath)
    (ho : ¬f <+: s.files.locate c.outputPath) (hsame : source.Same s.files s'.files) {r : Report}
    (hr : ((generate c source).on s).1 = .ok r) :
    ∃ d, ((draft c source).on s).1 = .ok d ∧ r.content = d.definition.render ∧
      (¬Casts.Stuck s'.files c.projectPath d.model.casts →
        ∃ r' d', ((generate c source).on s').1 = .ok r' ∧
          ((draft c source).on s').1 = .ok d' ∧ r'.content = d'.definition.render ∧
          d'.definition.propertyNames = d.definition.propertyNames ∧
          List.Forall₂ (Matches s.files c.projectPath f d.model.casts) d.definition.properties
            d'.definition.properties) ∧
      (Casts.Stuck s'.files c.projectPath d.model.casts →
        (∃ e, ((generate c source).on s').1 = .error (.fault (.unreadable (.file e)))) ∧
          ((generate c source).on s').2.files = s'.files) ∧
      ∀ descriptor, (∃ column, d.model.casts.get? column = some descriptor) →
        descriptor.toList.head? = some '\\' → Casts.Blocked s'.files c.projectPath descriptor →
          ¬Casts.Avoids s.files c.projectPath f descriptor := by
  obtain ⟨log, hrun⟩ := on_generate c source s
  obtain ⟨log', hrun'⟩ := on_generate c source s'
  have hout : f ≠ s.files.locate c.outputPath := by
    rintro rfl
    exact ho (List.prefix_refl _)
  rcases hd : (draft c source).on s with ⟨e | d, s₁⟩
  · simp [hrun, hd] at hr
  rcases hw : (write c d.definition.render).on s₁ with ⟨e | n, s₂⟩
  · simp [hrun, hd, hw] at hr
  obtain rfl : d.report c n = r := by simpa [hrun, hd, hw] using hr
  refine ⟨d, rfl, rfl, fun hfree => ?_, fun hstuck => ?_, ?_⟩
  · -- There is a draft again, and its class can be written where the first one could.
    obtain ⟨hs₁, d', s₁', hd', hs₁', hmatch⟩ := draft_isolated h hm hout hsame hd hfree
    obtain ⟨n', hn'⟩ := write_again hc.checked (hs₁ ▸ hs) (hs₁' ▸ hs') (hs₁ ▸ hs₁' ▸ h)
      (hs₁ ▸ ho) (hs₁ ▸ (preconditions_of_draft hd).1) (by rw [hw]) d'.definition.render
    rcases hw' : (write c d'.definition.render).on s₁' with ⟨e | m, s₂'⟩
    · simp [hw'] at hn'
    · refine ⟨d'.report c m, d', by simp only [hrun', hd', hw'], by rw [hd'], rfl, ?_, hmatch⟩
      have hnames := hmatch.flip.imp fun _ _ h => h.1
      rw [EntityDefinition.propertyNames, EntityDefinition.propertyNames, ← List.forall₂_eq_eq_eq,
        List.forall₂_map_left_iff, List.forall₂_map_right_iff]
      exact hnames
  · exact generate_of_stuck h hm hout (congrArg Prod.fst hd) hstuck
  · -- The first run had an answer for every class, so the other file made the difference.
    rintro descriptor ⟨column, hcast⟩ hhead hblocked
    have htypes := columnTypes_of_draft (congrArg Prod.fst hd)
    refine not_avoids_of_blocked h (fun hb => ?_) hblocked
    exact Casts.exists_columnTypes_fresh_iff.mp ⟨_, htypes⟩ ⟨column, descriptor, hcast, hhead, hb⟩

lemma exists_userDraft :
    ∃ d, ((draft userSettings userColumns).on ⟨userFiles, [], .ofNat 0⟩).1 = .ok d ∧
      d.model.casts.entries = [("a", "\\App\\A")] := by
  have hcasts : ((draft userSettings userColumns).on ⟨userFiles, [], .ofNat 0⟩).1.toOption.map
      (·.model.casts.entries) = some [("a", "\\App\\A")] := by decide +kernel
  rcases hd : ((draft userSettings userColumns).on ⟨userFiles, [], .ofNat 0⟩).1 with e | d
  · rw [hd] at hcasts
    cases hcasts
  · rw [hd] at hcasts
    exact ⟨d, rfl, Option.some.inj hcasts⟩

/-- In the small project a broken source for the cast's class leaves the run a success. -/
theorem generate_isolated_user :
    let broken := userFiles.set ["p", "app", "A.php"] (.file [0x3C, 0x3F, 0xFF])
    ∃ r r', ((generate userSettings userColumns).on ⟨userFiles, [], .ofNat 0⟩).1 = .ok r ∧
      ((generate userSettings userColumns).on ⟨broken, [], .ofNat 1⟩).1 = .ok r' := by
  intro broken
  obtain ⟨r, hr⟩ := exists_userRun
  have hbroken : (Session.mk broken [] (.ofNat 1)).files.WellFormed := by decide +kernel
  have hsame : userColumns.Same userFiles broken := columnsIn_same _ _ _
  obtain ⟨d, hd, -, hisolated, -⟩ := generate_isolated (f := ["p", "app", "A.php"])
    (s := ⟨userFiles, [], .ofNat 0⟩) userSettings_accepted userFiles_wellFormed hbroken
    (.set (by decide +kernel) (by decide)) (by decide +kernel) (by decide +kernel) hsame hr
  obtain ⟨d', hd', hentries⟩ := exists_userDraft
  obtain rfl := Except.ok.inj (hd.symm.trans hd')
  have htype : Casts.typeBy (Casts.Resolver.fresh broken userSettings.projectPath) "\\App\\A" =
      .ok "string" := by decide +kernel
  have hfree : ¬Casts.Stuck broken userSettings.projectPath d.model.casts := by
    refine Casts.exists_columnTypes_fresh_iff.mp
      ⟨_, Casts.columnTypes_eq_ok (g := fun _ => "string") fun e he => ?_⟩
    rw [hentries, List.mem_singleton] at he
    exact he ▸ htype
  obtain ⟨r', -, hr', -⟩ := hisolated hfree
  exact ⟨r, r', hr, hr'⟩

/-- A source that leads to a class whose name is too long makes the run fail. -/
theorem generate_fails :
    let delegating := userFiles.set ["p", "app", "A.php"] Casts.delegatingNode
    userFiles.DifferOnlyAt delegating ["p", "app", "A.php"] ∧ delegating.WellFormed ∧
      (∃ r, ((generate userSettings userColumns).on ⟨userFiles, [], .ofNat 0⟩).1 = .ok r) ∧
      ∃ e, ((generate userSettings userColumns).on ⟨delegating, [], .ofNat 0⟩).1 = .error e := by
  intro delegating
  have hdiffer : (Session.mk userFiles [] (.ofNat 0)).files.DifferOnlyAt
      (Session.mk delegating [] (.ofNat 0)).files ["p", "app", "A.php"] :=
    .set (by decide +kernel) (by decide)
  have hwell : delegating.WellFormed := by decide +kernel
  obtain ⟨d, hd, hentries⟩ := exists_userDraft
  have happ : delegating.place (userSettings.projectPath.child Settings.appDirectory) =
      .ok ["p", "app"] := by decide +kernel
  have hplace : Casts.sourcePlace? delegating userSettings.projectPath
      (ClassName.bare "\\App\\A") = some ["p", "app", "A.php"] := by decide +kernel
  have hblocked := Casts.blocked_of_delegatingNode hplace rfl
    (Casts.refused_longName happ (by decide +kernel))
  have hstuck : Casts.Stuck delegating userSettings.projectPath d.model.casts := by
    refine ⟨"a", "\\App\\A", ?_, by decide, hblocked⟩
    rw [OrderedMap.get?_eq_some_iff, hentries]
    exact List.mem_singleton_self _
  obtain ⟨⟨e, he⟩, -⟩ :=
    generate_of_stuck hdiffer (by decide +kernel) (by decide +kernel) hd hstuck
  exact ⟨hdiffer, hwell, exists_userRun, _, he⟩

end Generate

end EloquentEntity

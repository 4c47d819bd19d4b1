import EloquentEntity.Entity.Template
import EloquentEntity.Proofs.ClassName
import EloquentEntity.Proofs.Entity.Definition
import EloquentEntity.Proofs.OrderedMap
import Mathlib.Data.List.Perm.Basic
import Mathlib.Data.List.Sort

/-!
The import lines of a generated class, and the short names that they bind.

Which lines there are depends on nothing but the types that occur among the properties and on the
base class. Two class types that share a short name are reported; a class type that shares it with
the base class is not.
-/

namespace EloquentEntity

namespace ClassName

variable {name x y : String} {names names' : List String}

lemma useLine_injective : Function.Injective useLine := by
  intro x y h
  have h := congrArg String.toList h
  exact String.toList_inj.mp (by simpa [useLine] using h)

/-- The backslashes in front are not in the last segment. -/
lemma short_bare (name : String) : short (bare name) = short name := by
  have hfront : (name.toList.takeWhile (· == '\\')).reverse.takeWhile (· != '\\') = [] := by
    rw [List.takeWhile_eq_nil_iff]
    intro hpos
    have hmem := List.mem_takeWhile_imp (List.mem_reverse.mp (List.getElem_mem hpos))
    simpa using hmem
  have hsplit : name.toList.reverse = (name.toList.dropWhile (· == '\\')).reverse ++
      (name.toList.takeWhile (· == '\\')).reverse := by
    rw [← List.reverse_append, List.takeWhile_append_dropWhile]
  rw [short, short, bare, String.toList_ofList, hsplit, List.takeWhile_append, hfront]
  split
  · next hall => rw [List.append_nil, (List.takeWhile_prefix _).eq_of_length hall]
  · rfl

/-- Which names are imported is decided by which names there are. -/
lemma importNames_congr (h : ∀ x, x ∈ names ↔ x ∈ names') :
    importNames names = importNames names' :=
  (pairwise_importNames names).eq_of_mem_iff (pairwise_importNames names') fun y => by
    rw [mem_importNames_iff, mem_importNames_iff]
    simp only [h]

end ClassName

namespace EntityDefinition

variable {columns columns' : List String} {types types' : OrderedMap String String}
  {ns name X : String} {base : BaseClass} {fields fields' : List EntityField} {d : EntityDefinition}

/-! ### Import lines -/

/-- The class types of fields, without the backslashes in front. -/
def classTypes (fields : List EntityField) : List String := fields.filterMap (·.importName)

lemma mem_classTypes_iff : X ∈ classTypes fields ↔
    ∃ f ∈ fields, ClassName.isClass f.type = true ∧ ClassName.bare f.type = X := by
  simp [classTypes, EntityField.importName, List.mem_filterMap]

lemma bare_of_mem_classTypes (h : X ∈ classTypes fields) : ClassName.bare X = X := by
  obtain ⟨f, -, -, rfl⟩ := mem_classTypes_iff.mp h
  rcases hbare : (ClassName.bare f.type).toList with _ | ⟨c, s⟩
  · rw [String.toList_eq_nil_iff.mp hbare]
    rfl
  · refine ClassName.IsBare.bare_eq ⟨fun hnil => ?_, ClassName.head?_bare_ne _⟩
    rw [hnil] at hbare
    cases hbare

lemma bare_importName (base : BaseClass) :
    base.importName ≠ "" ∧ ClassName.bare base.importName = base.importName := by
  cases base <;> decide

/-- A class is imported just if it is the base class or the type of a field. -/
lemma mem_importLines_iff : ClassName.useLine X ∈ importLines fields base ↔
    X = base.importName ∨ X ≠ "" ∧ X ∈ classTypes fields := by
  obtain ⟨hne, hbase⟩ := bare_importName base
  rw [importLines, ClassName.useLines, List.mem_map_of_injective ClassName.useLine_injective,
    ClassName.mem_importNames_iff, ← classTypes]
  constructor
  · rintro ⟨hX, x, hx, rfl⟩
    rcases List.mem_append.mp hx with hx | hx
    · rw [bare_of_mem_classTypes hx] at hX ⊢
      exact .inr ⟨hX, hx⟩
    · rw [List.mem_singleton.mp hx, hbase]
      exact .inl rfl
  · rintro (rfl | ⟨hX, hx⟩)
    · exact ⟨hne, _, by simp, hbase⟩
    · exact ⟨hX, X, List.mem_append_left _ hx, bare_of_mem_classTypes hx⟩

/-- The lines do not depend on the order of the fields. -/
lemma importLines_perm (h : fields.Perm fields') : importLines fields base = importLines fields' base :=
  congrArg (List.map ClassName.useLine) <| ClassName.importNames_congr fun x => by
    rw [List.mem_append, List.mem_append, (h.filterMap _).mem_iff]

/-! ### Fields of columns -/

lemma injective_name_type : Function.Injective fun f : EntityField => (f.name, f.type) := by
  intro f g h
  obtain ⟨hname, htype⟩ := Prod.mk.inj h
  exact EntityField.ext hname htype

lemma fieldsOf_eq_ok_iff_map : fieldsOf columns types = .ok fields ↔
    fields.map (fun f => (f.name, f.type)) =
      (kept columns).map fun c => (c, columnType types c) := by
  rw [fieldsOf_eq_ok_iff]
  constructor
  · rintro ⟨hnames, htypes⟩
    rw [← hnames, List.map_map]
    exact List.map_congr_left fun f hf => by rw [Function.comp_apply, htypes f hf]
  · intro h
    have hnames : fields.map (·.name) = kept columns := by
      simpa [Function.comp_def] using congrArg (List.map Prod.fst) h
    refine ⟨hnames, fun f hf => ?_⟩
    have hmem : (f.name, f.type) ∈ (kept columns).map fun c => (c, columnType types c) :=
      h ▸ List.mem_map_of_mem hf
    obtain ⟨c, -, hc⟩ := List.mem_map.mp hmem
    obtain ⟨rfl, htype⟩ := Prod.mk.inj hc
    exact htype.symm

lemma mem_classTypes_of_fieldsOf (h : fieldsOf columns types = .ok fields) :
    X ∈ classTypes fields ↔ ∃ c ∈ kept columns,
      ClassName.isClass (columnType types c) = true ∧ ClassName.bare (columnType types c) = X := by
  obtain ⟨hnames, htypes⟩ := fieldsOf_eq_ok_iff.mp h
  rw [mem_classTypes_iff, ← hnames]
  simp only [List.mem_map, exists_exists_and_eq_and]
  exact exists_congr fun f => and_congr_right fun hf => by rw [htypes f hf]

lemma fieldsOf_perm (hcolumns : columns'.Perm columns) (h : fieldsOf columns types = .ok fields)
    (h' : fieldsOf columns' types = .ok fields') : fields'.Perm fields := by
  rw [← List.map_perm_map_iff injective_name_type, fieldsOf_eq_ok_iff_map.mp h,
    fieldsOf_eq_ok_iff_map.mp h']
  exact (hcolumns.filter _).map _

/-- **What a class is made of.** Its properties are the kept columns in order, each with its type.
The names that it imports are in order, and they are the base class and the class types of kept
columns. So types that give the kept columns the same make the same class, and another order of the
columns puts the properties in another order and changes nothing else. -/
theorem build_contents (hns : ns ≠ "") (hname : name ≠ "") (hcolumns : ∀ c ∈ columns, c ≠ "")
    (types : OrderedMap String String) (base : BaseClass) :
    ∃ d, build ns name columns types base = .ok d ∧
      d.namespaceName = ns ∧ d.className = name ∧ d.baseClass = base ∧
      d.properties.map (fun f => (f.name, f.type)) =
        (kept columns).map (fun c => (c, columnType types c)) ∧
      (∃ names : List String, d.imports = names.map ClassName.useLine ∧ names.Pairwise (· < ·)) ∧
      (∀ X, ClassName.useLine X ∈ d.imports ↔ X = base.importName ∨ X ≠ "" ∧ ∃ c ∈ kept columns,
        ClassName.isClass (columnType types c) = true ∧
          ClassName.bare (columnType types c) = X) ∧
      (∀ types' : OrderedMap String String,
        (∀ c ∈ kept columns, columnType types' c = columnType types c) →
          build ns name columns types' base = .ok d) ∧
      (∀ columns' : List String, columns'.Perm columns → ∃ properties,
        properties.Perm d.properties ∧
          build ns name columns' types base = .ok { d with properties := properties }) := by
  obtain ⟨fields, hfields⟩ := exists_fieldsOf (fun hm => hcolumns _ hm rfl) types
  refine ⟨⟨ns, name, base, fields, importLines fields base, hns, hname⟩,
    build_eq_ok_iff.mpr ⟨rfl, rfl, rfl, hfields, rfl⟩, rfl, rfl, rfl,
    fieldsOf_eq_ok_iff_map.mp hfields, ⟨_, rfl, ClassName.pairwise_importNames _⟩, fun X => ?_,
    fun types' htypes => ?_, fun columns' hperm => ?_⟩
  · rw [mem_importLines_iff, mem_classTypes_of_fieldsOf hfields]
  · refine build_eq_ok_iff.mpr ⟨rfl, rfl, rfl, fieldsOf_eq_ok_iff_map.mpr ?_, rfl⟩
    rw [fieldsOf_eq_ok_iff_map.mp hfields]
    exact List.map_congr_left fun c hc => by rw [htypes c hc]
  · obtain ⟨fields', hfields'⟩ :=
      exists_fieldsOf (fun hm => hcolumns _ (hperm.mem_iff.mp hm) rfl) types
    have hproperties := fieldsOf_perm hperm hfields hfields'
    exact ⟨fields', hproperties, build_eq_ok_iff.mpr
      ⟨rfl, rfl, rfl, hfields', importLines_perm hproperties.symm⟩⟩

def userColumns : List String := ["id", "created_at", "seen", "id"]

def userTypes : OrderedMap String String :=
  .ofList [("id", "int"), ("seen", "\\\\Illuminate\\Support\\Carbon"), ("created_at", "\\App\\Date")]

theorem build_contents_user : (∀ c ∈ userColumns, c ≠ "") ∧
    ∃ d, build "App\\Entities" "UserEntity" userColumns userTypes .data = .ok d ∧
      d.properties.map (fun f => (f.name, f.type)) =
        [("id", "int"), ("seen", "\\\\Illuminate\\Support\\Carbon"), ("id", "int")] ∧
      "use Illuminate\\Support\\Carbon;" ∈ d.imports ∧ "use App\\Date;" ∉ d.imports ∧
      build "App\\Entities" "UserEntity" userColumns (userTypes.erase "created_at") .data = .ok d := by
  have hcolumns : ∀ c ∈ userColumns, c ≠ "" := by decide
  obtain ⟨d, hbuild, -, -, -, hproperties, -, himports, hagree, -⟩ :=
    build_contents (show "App\\Entities" ≠ "" by decide) (show "UserEntity" ≠ "" by decide) hcolumns
      userTypes .data
  refine ⟨hcolumns, d, hbuild, hproperties.trans (by decide),
    (himports "Illuminate\\Support\\Carbon").mpr (.inr (by decide)), fun hm => ?_,
    hagree _ (by decide)⟩
  exact absurd ((himports "App\\Date").mp hm) (by decide)

/-! ### Short names that clash -/

lemma writtenType_of_importName {f : EntityField} (h : f.importName = some X) :
    f.writtenType = ClassName.short X := by
  rw [EntityField.importName] at h
  split at h
  · next hclass =>
    obtain rfl := Option.some.inj h
    rw [EntityField.writtenType, if_pos hclass, ClassName.short_bare]
  · cases h

/-- What the class types that have been met leave behind: under each short name the class that came
first, and clashes as soon as it is not the only one. -/
structure ShortNames.Scanned (s : ShortNames) (names : List String) : Prop where
  mem : ∀ {k X}, s.taken.get? k = some X → X ∈ names ∧ ClassName.short X = k
  taken : ∀ X ∈ names, (s.taken.get? (ClassName.short X)).isSome = true
  clashes : s.clashes = [] ↔ ∀ X ∈ names, s.taken.get? (ClassName.short X) = some X

lemma ShortNames.Scanned.add {s : ShortNames} {names : List String} (h : s.Scanned names)
    (f : EntityField) : (s.add f).Scanned (names ++ f.importName.toList) := by
  rw [ShortNames.add]
  rcases himport : f.importName with _ | X
  · simpa using h
  rw [writtenType_of_importName himport]
  dsimp only [Option.toList]
  rcases htaken : s.taken.get? (ClassName.short X) with _ | Y
  · -- The short name is new, so that no class met so far has it.
    have hnew : ∀ Y ∈ names, ClassName.short X ≠ ClassName.short Y := fun Y hY heq => by
      have := h.taken Y hY
      rw [← heq, htaken] at this
      cases this
    refine ⟨fun {k Y} hget => ?_, fun Y hY => ?_, h.clashes.trans ?_⟩
    · rw [OrderedMap.get?_put] at hget
      split at hget
      · next hk =>
        obtain rfl := Option.some.inj hget
        exact ⟨by simp, hk⟩
      · exact ⟨List.mem_append_left _ (h.mem hget).1, (h.mem hget).2⟩
    · rw [OrderedMap.get?_put]
      rcases List.mem_append.mp hY with hY | hY
      · rw [if_neg (hnew Y hY)]
        exact h.taken Y hY
      · rw [List.mem_singleton.mp hY, if_pos rfl]
        rfl
    · rw [List.forall_mem_append, List.forall_mem_singleton, OrderedMap.get?_put, if_pos rfl,
        and_iff_left rfl]
      exact forall₂_congr fun Y hY => by rw [OrderedMap.get?_put, if_neg (hnew Y hY)]
  · have hmem : ∀ {k Z}, s.taken.get? k = some Z → Z ∈ names ++ [X] ∧ ClassName.short Z = k :=
      fun hget => ⟨List.mem_append_left _ (h.mem hget).1, (h.mem hget).2⟩
    have hall : ∀ Z ∈ names ++ [X], (s.taken.get? (ClassName.short Z)).isSome = true :=
      List.forall_mem_append.mpr ⟨h.taken, by simp [htaken]⟩
    dsimp only
    split
    · next heq =>
      subst heq
      refine ⟨hmem, hall, h.clashes.trans ?_⟩
      rw [List.forall_mem_append, List.forall_mem_singleton, and_iff_left htaken]
    · next hne =>
      refine ⟨hmem, hall, iff_of_false (by simp) fun hclashes => hne ?_⟩
      have hX := hclashes X (by simp)
      rw [htaken] at hX
      exact Option.some.inj hX

lemma ShortNames.Scanned.foldl {s : ShortNames} {names : List String} (h : s.Scanned names)
    (fields : List EntityField) :
    (fields.foldl ShortNames.add s).Scanned (names ++ classTypes fields) := by
  induction fields generalizing s names with
  | nil => simpa [classTypes] using h
  | cons f fields ih =>
    have hnames : names ++ classTypes (f :: fields) =
        names ++ f.importName.toList ++ classTypes fields := by
      rw [List.append_assoc, classTypes, List.filterMap_cons, classTypes]
      cases f.importName <;> rfl
    rw [hnames]
    exact ih (h.add f)

/-- Two different names have the same last segment. -/
def Clash (names : List String) : Prop :=
  ∃ X ∈ names, ∃ Y ∈ names, X ≠ Y ∧ ClassName.short X = ClassName.short Y

lemma warnings_ne_nil_iff (d : EntityDefinition) :
    d.warnings ≠ [] ↔ Clash (classTypes d.properties) := by
  have h : ShortNames.Scanned ⟨∅, []⟩ [] := ⟨nofun, by simp, by simp⟩
  have h := h.foldl d.properties
  rw [List.nil_append] at h
  rw [← not_iff_not, not_not, warnings, List.map_eq_nil_iff, EntityDefinition.clashes, h.clashes]
  constructor
  · rintro hall ⟨X, hX, Y, hY, hne, hshort⟩
    have := hall X hX
    rw [hshort, hall Y hY] at this
    exact hne (Option.some.inj this).symm
  · intro hno X hX
    obtain ⟨Y, hget⟩ := Option.isSome_iff_exists.mp (h.taken X hX)
    obtain ⟨hY, hshort⟩ := h.mem hget
    rw [hget]
    by_contra hne
    exact hno ⟨X, hX, Y, hY, fun heq => hne (congrArg some heq.symm), hshort.symm⟩

/-- Two import lines bind one short name. -/
def Ambiguous (d : EntityDefinition) : Prop :=
  ∃ X Y, ClassName.useLine X ∈ d.imports ∧ ClassName.useLine Y ∈ d.imports ∧ X ≠ Y ∧
    ClassName.short X = ClassName.short Y

lemma short_importName (base : BaseClass) : ClassName.short base.importName = base.name := by
  cases base <;> decide

/-- **Which clashes are reported.** There is a warning just if two different class types of the
properties share their short name. So without a warning only the short name of the base class may
be bound twice, and where no other class type has that short name, a warning tells that some short
name is. -/
theorem warnings_of_build (h : build ns name columns types base = .ok d) :
    (d.warnings ≠ [] ↔ Clash (classTypes d.properties)) ∧
    (d.warnings = [] → ∀ X Y, ClassName.useLine X ∈ d.imports → ClassName.useLine Y ∈ d.imports →
      X ≠ Y → ClassName.short X = ClassName.short Y →
        X = base.importName ∨ Y = base.importName) ∧
    ((∀ X ∈ classTypes d.properties,
        X ≠ "" ∧ (ClassName.short X = base.name → X = base.importName)) →
      (d.warnings ≠ [] ↔ d.Ambiguous)) := by
  obtain ⟨-, -, -, -, himports⟩ := build_eq_ok_iff.mp h
  have hwarn := warnings_ne_nil_iff d
  refine ⟨hwarn, fun hnone X Y hX hY hne hshort => ?_, fun hapart => hwarn.trans ?_⟩
  · rw [himports, mem_importLines_iff] at hX hY
    rcases hX with hX | ⟨-, hX⟩
    · exact .inl hX
    rcases hY with hY | ⟨-, hY⟩
    · exact .inr hY
    exact absurd hnone (hwarn.mpr ⟨X, hX, Y, hY, hne, hshort⟩)
  · rw [Ambiguous, himports]
    simp only [mem_importLines_iff]
    constructor
    · rintro ⟨X, hX, Y, hY, hne, hshort⟩
      exact ⟨X, Y, .inr ⟨(hapart X hX).1, hX⟩, .inr ⟨(hapart Y hY).1, hY⟩, hne, hshort⟩
    · rintro ⟨X, Y, rfl | ⟨-, hX⟩, rfl | ⟨-, hY⟩, hne, hshort⟩
      · exact absurd rfl hne
      · exact absurd ((hapart Y hY).2 (hshort.symm.trans (short_importName base))).symm hne
      · exact absurd ((hapart X hX).2 (hshort.trans (short_importName base))) hne
      · exact ⟨X, hX, Y, hY, hne, hshort⟩

def moneyEntity : EntityDefinition where
  namespaceName := "App\\Dto"
  className := "OrderEntity"
  baseClass := .data
  properties := [⟨"a", "\\App\\Money", by decide, by decide⟩,
    ⟨"b", "\\Brick\\Money", by decide, by decide⟩]
  imports := ["use App\\Money;", "use Brick\\Money;", "use Spatie\\LaravelData\\Data;"]
  namespaceName_ne := by decide
  className_ne := by decide

theorem warnings_of_build_money :
    build "App\\Dto" "OrderEntity" ["a", "b"]
      (.ofList [("a", "\\App\\Money"), ("b", "\\Brick\\Money")]) .data = .ok moneyEntity ∧
    (∀ X ∈ classTypes moneyEntity.properties,
      X ≠ "" ∧ (ClassName.short X = "Data" → X = "Spatie\\LaravelData\\Data")) ∧
    moneyEntity.warnings ≠ [] ∧ moneyEntity.Ambiguous := by
  have hbuild : build "App\\Dto" "OrderEntity" ["a", "b"]
      (.ofList [("a", "\\App\\Money"), ("b", "\\Brick\\Money")]) .data = .ok moneyEntity :=
    build_eq_ok_iff.mpr ⟨rfl, rfl, rfl, fieldsOf_eq_ok_iff.mpr ⟨by decide, by decide⟩, by decide⟩
  have hapart : ∀ X ∈ classTypes moneyEntity.properties,
      X ≠ "" ∧ (ClassName.short X = "Data" → X = "Spatie\\LaravelData\\Data") := by decide
  obtain ⟨hwarn, -, hlines⟩ := warnings_of_build hbuild
  have hwarnings := hwarn.mpr ⟨"App\\Money", by decide, "Brick\\Money", by decide⟩
  exact ⟨hbuild, hapart, hwarnings, (hlines hapart).mp hwarnings⟩

def dataEntity : EntityDefinition where
  namespaceName := "App\\Dto"
  className := "OrderEntity"
  baseClass := .data
  properties := [⟨"a", "\\App\\Data", by decide, by decide⟩]
  imports := ["use App\\Data;", "use Spatie\\LaravelData\\Data;"]
  namespaceName_ne := by decide
  className_ne := by decide

def blankEntity : EntityDefinition where
  namespaceName := "App\\Dto"
  className := "OrderEntity"
  baseClass := .data
  properties := [⟨"a", "\\", by decide, by decide⟩, ⟨"b", "\\A\\", by decide, by decide⟩]
  imports := ["use A\\;", "use Spatie\\LaravelData\\Data;"]
  namespaceName_ne := by decide
  className_ne := by decide

/-- A short name is bound twice without a warning, and there is a warning where none is. -/
theorem warnings_of_dataEntity :
    (build "App\\Dto" "OrderEntity" ["a"] (.ofList [("a", "\\App\\Data")]) .data =
        .ok dataEntity ∧ dataEntity.Ambiguous ∧ dataEntity.warnings = []) ∧
    build "App\\Dto" "OrderEntity" ["a", "b"] (.ofList [("a", "\\"), ("b", "\\A\\")]) .data =
        .ok blankEntity ∧ ¬ blankEntity.Ambiguous ∧ blankEntity.warnings ≠ [] := by
  refine ⟨⟨build_eq_ok_iff.mpr
    ⟨rfl, rfl, rfl, fieldsOf_eq_ok_iff.mpr ⟨by decide, by decide⟩, by decide⟩,
    ⟨"App\\Data", "Spatie\\LaravelData\\Data", by decide⟩, by decide⟩, build_eq_ok_iff.mpr
    ⟨rfl, rfl, rfl, fieldsOf_eq_ok_iff.mpr ⟨by decide, by decide⟩, by decide⟩, ?_, ?_⟩
  · have hlines : ∀ X, ClassName.useLine X ∈ blankEntity.imports →
        X = "A\\" ∨ X = "Spatie\\LaravelData\\Data" := fun X hX => by
      change _ ∈ ["A\\", "Spatie\\LaravelData\\Data"].map ClassName.useLine at hX
      rw [List.mem_map_of_injective ClassName.useLine_injective] at hX
      simpa using hX
    rintro ⟨X, Y, hX, hY, hne, hshort⟩
    rcases hlines X hX with rfl | rfl <;> rcases hlines Y hY with rfl | rfl
    · exact hne rfl
    · exact absurd hshort (by decide)
    · exact absurd hshort (by decide)
    · exact hne rfl
  · rw [Ne, warnings, List.map_eq_nil_iff]
    decide

end EntityDefinition

end EloquentEntity

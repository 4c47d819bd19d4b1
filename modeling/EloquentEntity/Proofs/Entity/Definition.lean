import EloquentEntity.Entity.Definition
import EloquentEntity.Proofs.Settings
import Mathlib.Data.List.Forall2

/-!
When a class is made from columns, and which one it is.
-/

namespace EloquentEntity

lemma mapM_eq_ok_iff {ε α β : Type} {f : α → Except ε β} {l : List α} {r : List β} :
    l.mapM f = .ok r ↔ List.Forall₂ (fun a b => f a = .ok b) l r := by
  induction l generalizing r with
  | nil => simp [pure, Except.pure, eq_comm]
  | cons a l ih =>
    rw [List.mapM_cons, List.forall₂_cons_left_iff]
    constructor
    · intro h
      obtain ⟨b, hb, h⟩ := exists_of_bind_eq_ok h
      obtain ⟨bs, hbs, h⟩ := exists_of_bind_eq_ok h
      obtain rfl := Except.ok.inj h
      exact ⟨b, bs, hb, ih.mp hbs, rfl⟩
    · rintro ⟨b, bs, hb, hbs, rfl⟩
      rw [hb, ih.mpr hbs]
      rfl

namespace EntityField

variable {f : EntityField} {name type key s : String} {d : Option Raw}

@[ext]
lemma ext {f g : EntityField} (hn : f.name = g.name) (ht : f.type = g.type) : f = g := by
  cases f; cases g; congr

/-- A text that is given is taken if it is not empty. -/
lemma given_text {fields : List (String × Raw)} (h : fields.lookup key = some (.text s)) :
    given fields key d =
      if hs : s = "" then .error ⟨[key], .tooShort⟩ else .ok ⟨s, hs⟩ := by
  rw [given, h]
  by_cases hs : s = "" <;> simp [Raw.asNonEmpty, Raw.asText, hs]

lemma make_eq_ok_iff : make name type = .ok f ↔ f.name = name ∧ f.type = type := by
  have hunknown : unknownFields ["name", "type_name"]
      [("name", .text name), ("type_name", .text type)] = [] := rfl
  rw [make, ofRaw, hunknown, given_text rfl, given_text rfl]
  have hn := f.name_ne
  have ht := f.type_ne
  by_cases hname : name = ""
  · subst hname
    simp [hn]
  · by_cases htype : type = ""
    · subst htype
      simp [hname, ht]
    · simp only [hname, htype, dite_false, Except.ok.injEq]
      exact ⟨fun h => h ▸ ⟨rfl, rfl⟩, fun h => ext h.1.symm h.2.symm⟩

end EntityField

namespace EntityDefinition

variable {columns : List String} {types types' : OrderedMap String String} {ns name : String}
  {base : BaseClass} {fields : List EntityField} {d : EntityDefinition}

lemma columnType_ne (types : OrderedMap String String) (column : String) :
    columnType types column ≠ "" := by
  rw [columnType]
  rcases h : (types.get? column).filter (· ≠ "") with _ | type
  · decide
  · simpa using (Option.filter_eq_some_iff.mp h).2

def kept (columns : List String) : List String := columns.filter fun c => !bookkeeping.contains c

/-- Each kept column has a field with its name and type. -/
lemma fieldsOf_eq_ok_iff : fieldsOf columns types = .ok fields ↔
    fields.map (·.name) = kept columns ∧ ∀ f ∈ fields, f.type = columnType types f.name := by
  rw [fieldsOf, mapM_eq_ok_iff]
  simp only [EntityField.make_eq_ok_iff]
  change List.Forall₂ _ (kept columns) fields ↔ _
  induction kept columns generalizing fields with
  | nil => cases fields <;> simp
  | cons c cs ih =>
    cases fields with
    | nil => simp
    | cons f fs =>
      rw [List.forall₂_cons, ih, List.map_cons, List.cons.injEq, List.forall_mem_cons]
      constructor
      · rintro ⟨⟨rfl, ht⟩, hn, hts⟩
        exact ⟨⟨rfl, hn⟩, ht, hts⟩
      · rintro ⟨⟨rfl, hn⟩, ht, hts⟩
        exact ⟨⟨rfl, ht⟩, hn, hts⟩

lemma exists_fieldsOf (h : "" ∉ columns) (types : OrderedMap String String) :
    ∃ fields, fieldsOf columns types = .ok fields := by
  have hkept : "" ∉ kept columns := fun hm => h (List.mem_of_mem_filter hm)
  refine ⟨(kept columns).attach.map fun c =>
    ⟨c.1, columnType types c.1, fun hc => hkept (hc ▸ c.2), columnType_ne types c.1⟩,
    fieldsOf_eq_ok_iff.mpr ⟨?_, ?_⟩⟩
  · rw [List.map_map]
    exact List.attach_map_subtype_val _
  · intro f hf
    obtain ⟨c, -, rfl⟩ := List.mem_map.mp hf
    rfl

lemma build_eq_ok_iff : build ns name columns types base = .ok d ↔
    d.namespaceName = ns ∧ d.className = name ∧ d.baseClass = base ∧
      fieldsOf columns types = .ok d.properties ∧ d.imports = importLines d.properties base := by
  have hn := d.namespaceName_ne
  have hc := d.className_ne
  simp only [build]
  rw [EntityField.given_text rfl, EntityField.given_text rfl]
  constructor
  · intro h
    obtain ⟨fields, hfields, h⟩ := exists_of_bind_eq_ok h
    by_cases hns : ns = ""
    · simp [hns, throw, throwThe, MonadExceptOf.throw] at h
    · by_cases hname : name = ""
      · simp [hns, hname, throw, throwThe, MonadExceptOf.throw] at h
      · simp only [hns, hname, dite_false] at h
        obtain rfl := Except.ok.inj h
        exact ⟨rfl, rfl, rfl, hfields, rfl⟩
  · rintro ⟨rfl, rfl, rfl, hfields, himports⟩
    simp only [hn, hc, dite_false, hfields]
    cases d
    dsimp only at himports
    subst himports
    rfl

end EntityDefinition

end EloquentEntity

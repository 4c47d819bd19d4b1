import EloquentEntity.Casts.ReturnType
import EloquentEntity.Proofs.ClassName
import EloquentEntity.Proofs.Imports.Entries

/-!
The class that a name stands for, as a declared type and as an operand.

A declared type keeps a name with a backslash in front as it is. An operand looks up each name
without that backslash, so that the two differ just where a file imports another class under the
short name that follows the backslash.
-/

namespace EloquentEntity

namespace ClassName

variable {name other : String} {imports : Imports}

lemma qualify_eq_iff : qualify name = qualify other ↔ bare name = bare other := by
  rw [qualify, qualify]
  constructor
  · intro h
    have h := congrArg String.toList h
    exact String.toList_inj.mp (by simpa using h)
  · exact fun h => by rw [h]

lemma bare_of_head?_ne (h : name.toList.head? ≠ some '\\') : bare name = name := by
  have := bare_of_notMem_head? (s := name.toList) (by simpa using h)
  rwa [String.ofList_toList] at this

end ClassName

namespace Casts

open Syntax

variable {t n root : Tree} {imports : Imports} {written type source : String}

/-- The name that a declared type consists of, with or without a question mark in front. -/
def typeName? (t : Tree) : Option Tree :=
  (if t.is .optionalType then t.nodes.head? else some t).bind fun u =>
    if u.is .namedType then u.nodes.head? else none

lemma simpleReturnType?_of_named {u : Tree} (hu : u.is .namedType = true)
    (hn : u.nodes.head? = some n) (h : simpleReturnType? u imports = some type) :
    classOfName? n.nameText imports = some type := by
  have hkind : u.kind? = some .namedType := by simpa [Tree.is] using hu
  rw [simpleReturnType?, hkind] at h
  simp only [hn] at h
  split at h
  · exact h
  · cases h

/-- A type that is a name stands for the class of that name. -/
lemma classOfName?_of_returnType? (hn : typeName? t = some n)
    (h : returnType? (some t) imports = some type) :
    classOfName? n.nameText imports = some type := by
  have hnamed {u : Tree} (hn : (if u.is .namedType then u.nodes.head? else none) = some n)
      (h : simpleReturnType? u imports = some type) :
      classOfName? n.nameText imports = some type := by
    split at hn
    · next hu => exact simpleReturnType?_of_named hu hn h
    · cases hn
  rw [typeName?] at hn
  rw [returnType?, Option.bind_some] at h
  cases hoptional : t.is .optionalType with
  | true =>
    rw [hoptional, if_pos rfl] at hn h
    obtain ⟨u, hu, hn⟩ := Option.bind_eq_some_iff.mp hn
    rw [hu, Option.bind_some] at h
    exact hnamed hn h
  | false =>
    rw [hoptional, if_neg (by simp)] at hn h
    exact hnamed (by simpa using hn) h

/-- Behind its backslash the name is a short name of another class. -/
def IsHidden (written : String) (imports : Imports) : Prop :=
  written.toList.head? = some '\\' ∧ '\\' ∉ (ClassName.bare written).toList ∧
    ∃ full ∈ imports.get? (ClassName.bare written), ClassName.bare full ≠ ClassName.bare written

instance (written : String) (imports : Imports) : Decidable (IsHidden written imports) :=
  inferInstanceAs (Decidable (_ ∧ _ ∧ ∃ full ∈ imports.get? (ClassName.bare written), _))

/-- With a backslash in front the name is kept, without one it is looked up as an operand is. -/
lemma classOfName?_cases (h : classOfName? written imports = some type) :
    (written.toList.head? = some '\\' ∧ type = ClassName.qualify written) ∨
      written.toList.head? ≠ some '\\' ∧ type = ClassName.resolve written imports := by
  rw [classOfName?] at h
  split at h
  · next hhead => exact .inl ⟨hhead, (Option.some.inj h).symm⟩
  · next hhead =>
    obtain ⟨full, hget, rfl⟩ := Option.map_eq_some_iff.mp h
    refine .inr ⟨hhead, ?_⟩
    rw [ClassName.resolve, ClassName.bare_of_head?_ne hhead, hget]

/-- **The two readings of a class name agree,** unless the name is a single segment behind a
backslash that the file imports as another class. Then the declared type keeps the name. -/
theorem returnType?_eq_resolve_iff (h : parse source = some root) (hn : typeName? t = some n)
    (htype : returnType? (some t) (Imports.collect root) = some type) :
    (type = ClassName.resolve n.nameText (Imports.collect root) ↔
      ¬ IsHidden n.nameText (Imports.collect root)) ∧
    (IsHidden n.nameText (Imports.collect root) → type = ClassName.qualify n.nameText) := by
  rcases classOfName?_cases (classOfName?_of_returnType? hn htype) with
    ⟨hhead, rfl⟩ | ⟨hhead, rfl⟩
  · refine ⟨?_, fun _ => rfl⟩
    rw [ClassName.resolve]
    cases hget : (Imports.collect root).get? (ClassName.bare n.nameText) with
    | none =>
      refine iff_of_true rfl ?_
      rintro ⟨-, -, full, hfull, -⟩
      rw [hget] at hfull
      cases hfull
    | some full =>
      have hsegment : '\\' ∉ (ClassName.bare n.nameText).toList := fun hm => by
        rw [Imports.get?_collect_eq_none h hm] at hget
        cases hget
      dsimp only
      rw [ClassName.qualify_eq_iff, ← not_iff_not, not_not]
      constructor
      · exact fun hne => ⟨hhead, hsegment, full, hget, fun heq => hne heq.symm⟩
      · rintro ⟨-, -, full', hfull, hne⟩
        rw [hget] at hfull
        obtain rfl := Option.some.inj hfull
        exact fun heq => hne heq.symm
  · have hno : ¬ IsHidden n.nameText (Imports.collect root) := fun hhidden => hhead hhidden.1
    exact ⟨iff_of_true rfl hno, fun hhidden => absurd hhidden hno⟩

def getType? (root : Tree) : Option Tree :=
  (root.firstClass?.bind (·.method? "get")).bind Tree.declaredType?

/-- An imported short name after a question mark. -/
theorem returnType?_eq_resolve_money :
    ∃ root ∈ parse "<?php use App\\Money; class A \x7b function get(): ?Money \x7b\x7d \x7d",
      ∃ t ∈ getType? root, ∃ n ∈ typeName? t,
        returnType? (some t) (Imports.collect root) = some "\\App\\Money" ∧
        ¬ IsHidden n.nameText (Imports.collect root) ∧
        "\\App\\Money" = ClassName.resolve n.nameText (Imports.collect root) := by
  have hfacts :
      ∃ root ∈ parse "<?php use App\\Money; class A \x7b function get(): ?Money \x7b\x7d \x7d",
        ∃ t ∈ getType? root, ∃ n ∈ typeName? t,
          returnType? (some t) (Imports.collect root) = some "\\App\\Money" ∧
          ¬ IsHidden n.nameText (Imports.collect root) := by
    decide +kernel
  obtain ⟨root, hparse, t, ht, n, hn, htype, hno⟩ := hfacts
  exact ⟨root, hparse, t, ht, n, hn, htype, hno,
    (returnType?_eq_resolve_iff hparse hn htype).1.mpr hno⟩

/-- A class of the global namespace whose name is imported for another class. -/
theorem returnType?_of_hidden :
    ∃ root ∈ parse "<?php use App\\Money; class A \x7b function get(): \\Money \x7b\x7d \x7d",
      ∃ t ∈ getType? root, ∃ n ∈ typeName? t, n.nameText = "\\Money" ∧
        returnType? (some t) (Imports.collect root) = some "\\Money" ∧
        ClassName.resolve n.nameText (Imports.collect root) = "\\App\\Money" := by
  decide +kernel

end Casts

end EloquentEntity

import EloquentEntity.Proofs.Casts.OtherClasses
import EloquentEntity.Proofs.OrderedMap

/-!
The casts of the property and those of the method, as the casts of one array.

The method's entries go behind the property's, whichever of the two is written first. Entries that
are not literal take no part: whatever stands between two literal ones, these keep their order, and
the last value of a column stands where the column came first.
-/

namespace EloquentEntity.Casts

open Syntax Syntax.Tree MarkedRow

variable {t u root p m c : Tree} {ts : List Tree} {row row' : MarkedRow}

/-! ### Literal entries -/

/-- A string without expressions in it, in one of the four notations. -/
def IsPlainString (t : Tree) : Prop :=
  t.isOneOf [.singleQuoted, .doubleQuoted, .heredoc, .nowdoc] = true

/-- `Name::class` with a name that means the same class wherever it stands. -/
def NamesClass (t : Tree) : Prop :=
  t.is .classConstant = true ∧ ∃ scope part more, t.nodes = scope :: part :: more ∧
    Text.lower ((part :: more).getLast (List.cons_ne_nil _ _)).text = "class".toList ∧
    scope.nameText ≠ "" ∧
    ∀ relative ∈ ["self", "static", "parent"], relative.toList ≠ Text.lower scope.nameText.toList

/-- A plain string for a key, and a plain string or the name of a class for its value. -/
def IsLiteralEntry (t : Tree) : Prop :=
  t.hasToken (.symbol "=>") = true ∧ ∃ key value, t.nodes = [key, value] ∧
    IsPlainString key ∧ (IsPlainString value ∨ NamesClass value)

lemma isSome_value?_iff : (Literal.value? t).isSome ↔ IsPlainString t := by
  rw [Literal.value?, IsPlainString, isOneOf]
  rcases hk : t.kind? with _ | k
  · simp [is, hk]
  · cases k <;> simp [is, hk]

lemma isSome_classReference?_iff (imports : Imports) :
    (classReference? t imports).isSome ↔ NamesClass t := by
  rw [classReference?, NamesClass]
  rcases hnodes : t.nodes with _ | ⟨scope, _ | ⟨part, more⟩⟩
  · cases t.is .classConstant <;> simp
  · cases t.is .classConstant <;> simp
  · cases t.is .classConstant
    · simp
    · have hlast : ((part :: more).getLast?.getD part) =
          (part :: more).getLast (List.cons_ne_nil _ _) := by
        rw [List.getLast?_eq_some_getLast (List.cons_ne_nil _ _), Option.getD_some]
      simp [hlast, and_assoc]

lemma isSome_descriptor?_iff (imports : Imports) :
    (descriptor? t imports).isSome ↔ IsPlainString t ∨ NamesClass t := by
  rw [descriptor?, Option.isSome_or, Bool.or_eq_true, isSome_value?_iff,
    isSome_classReference?_iff]

lemma isSome_literalEntry_iff (imports : Imports) :
    (literalEntry imports t).isSome ↔ IsLiteralEntry t := by
  rw [literalEntry, IsLiteralEntry]
  rcases hnodes : t.nodes with _ | ⟨key, _ | ⟨value, _ | ⟨third, more⟩⟩⟩
  · cases t.hasToken (.symbol "=>") <;> simp
  · cases t.hasToken (.symbol "=>") <;> simp
  · cases t.hasToken (.symbol "=>")
    · simp
    · have hboth : (do
          let k ← Literal.value? key
          let v ← descriptor? value imports
          pure (k, v)).isSome ↔
            (Literal.value? key).isSome ∧ (descriptor? value imports).isSome := by
        cases Literal.value? key <;> cases descriptor? value imports <;> simp
      rw [isSome_value?_iff, isSome_descriptor?_iff] at hboth
      simpa using hboth
  · cases t.hasToken (.symbol "=>") <;> simp

instance (t : Tree) : Decidable (IsLiteralEntry t) :=
  decidable_of_iff _ (isSome_literalEntry_iff ∅)

lemma filterMap_own (h : ∀ u ∈ row.further, ¬IsLiteralEntry u) (imports : Imports) :
    row.trees.filterMap (literalEntry imports) = row.own.filterMap (literalEntry imports) := by
  induction row with
  | nil => rfl
  | cons x row ih =>
    obtain ⟨u, mark⟩ := x
    cases mark with
    | true =>
      rw [further, List.filter_cons_of_pos (by simp), trees, List.map_cons,
        List.forall_mem_cons] at h
      have hnone : literalEntry imports u = none := by
        rw [← Option.not_isSome_iff_eq_none, isSome_literalEntry_iff]
        exact h.1
      rw [trees, List.map_cons, List.filterMap_cons_none hnone, own,
        List.filter_cons_of_neg (by simp)]
      exact ih h.2
    | false =>
      rw [further, List.filter_cons_of_neg (by simp)] at h
      rw [trees, List.map_cons, own, List.filter_cons_of_pos (by simp), trees, List.map_cons,
        List.filterMap_cons, List.filterMap_cons]
      have := ih h
      rw [trees, own, trees] at this
      rw [this]

/-! ### Both declarations -/

/-- In document order, `p` is what the first property `$casts` starts with, and `m` is what the
first method `casts()` returns first. -/
structure Declares (root p m : Tree) : Prop where
  property : ∃ d e, root.preorder.find? (declaresProperty "casts") = some d ∧
    (d.childrenOf .propertyElement).find? (·.propertyName == "casts") = some e ∧
    e.initializer? = some p
  method : ∃ f, root.preorder.find? declaresCasts = some f ∧ f.firstReturn? = some m

lemma declares_iff : Declares root p m ↔
    root.propertyDefault? "casts" false = some p ∧
      (castsMethod? root).bind firstReturn? = some m := by
  rw [propertyDefault?_eq, castsMethod?_eq]
  simp only [Option.bind_eq_some_iff]
  constructor
  · rintro ⟨⟨d, e, hd, he, hp⟩, f, hf, hm⟩
    exact ⟨⟨e, ⟨d, hd, he⟩, hp⟩, f, hf, hm⟩
  · rintro ⟨⟨e, ⟨d, hd, he⟩, hp⟩, f, hf, hm⟩
    exact ⟨⟨d, e, hd, he, hp⟩, f, hf, hm⟩

lemma literalMap_array (hc : c.is .array = true) (imports : Imports) :
    literalMap (some c) imports =
      .ofList ((c.childrenOf .arrayElement).filterMap (literalEntry imports)) := by
  rw [literalMap, entries, if_pos hc]

/-- **Both declarations count as one array**: the casts are those of an array that has the entries
of the property's array and then those of the method's. -/
theorem locate_of_declares (h : Declares root p m) (hp : p.is .array = true)
    (hm : m.is .array = true) (hc : c.is .array = true)
    (hrow : row.trees = p.childrenOf .arrayElement)
    (hrow' : row'.trees = m.childrenOf .arrayElement)
    (hfurther : ∀ u ∈ row.further ++ row'.further, ¬IsLiteralEntry u)
    (hown : List.Forall₂ Same (row.own ++ row'.own) (c.childrenOf .arrayElement))
    (imports : Imports) :
    locate root imports = literalMap (some c) imports := by
  rw [List.forall_mem_append] at hfurther
  have hsame : (row.own ++ row'.own).filterMap (literalEntry imports) =
      (c.childrenOf .arrayElement).filterMap (literalEntry imports) :=
    filterMap_related hown fun _ _ => Same.agreement.literalEntry_eq imports
  obtain ⟨hproperty, hmethod⟩ := declares_iff.mp h
  rw [locate, ofProperty, ofMethod, hproperty, hmethod, literalMap_array hp, literalMap_array hm,
    literalMap_array hc, ← hrow, ← hrow', filterMap_own hfurther.1, filterMap_own hfurther.2,
    OrderedMap.merge_ofList, ← hsame, List.filterMap_append, OrderedMap.ofList, OrderedMap.ofList,
    OrderedMap.putAll_append]

def modelOfBoth : String :=
  "<?php class User \x7b " ++
    "protected $casts = array('a' => 'int', 5 => 'x', 'b' => Money::class); " ++
    "function casts() " ++
    "\x7b return [...$x, 'b' => 'date', 'a' => self::class, 'd' => 'int']; \x7d \x7d"

def arrayOfBoth : String :=
  "<?php $x = ['a' => 'int', 'b' => Money::class, 'b' => 'date', 'd' => 'int'];"

/-- A column keeps the place that the property gives it and gets the value of the method. -/
theorem locate_of_declares_user :
    ∃ root ∈ parse modelOfBoth, ∃ c ∈ (parse arrayOfBoth).bind (·.find? (·.is .array)),
      (locate root ∅).entries = [("a", "int"), ("b", "date"), ("d", "int")] ∧
      ∀ imports, locate root imports = literalMap (some c) imports := by
  let marks := [false, true, false]
  let marks' := [true, false, true, false]
  have hfacts : ∃ root ∈ parse modelOfBoth, ∃ p ∈ root.propertyDefault? "casts" false,
      ∃ m ∈ (castsMethod? root).bind firstReturn?,
      ∃ c ∈ (parse arrayOfBoth).bind (·.find? (·.is .array)),
        let row : MarkedRow := (p.childrenOf .arrayElement).zip marks
        let row' : MarkedRow := (m.childrenOf .arrayElement).zip marks'
        (locate root ∅).entries = [("a", "int"), ("b", "date"), ("d", "int")] ∧
        p.is .array = true ∧ m.is .array = true ∧ c.is .array = true ∧
        (p.childrenOf .arrayElement).length ≤ marks.length ∧
        (m.childrenOf .arrayElement).length ≤ marks'.length ∧
        (∀ u ∈ row.further ++ row'.further, ¬IsLiteralEntry u) ∧
        sameAll (row.own ++ row'.own) (c.childrenOf .arrayElement) = true := by
    decide +kernel
  obtain ⟨root, hroot, p, hp, m, hm, c, hc, hentries, hparray, hmarray, hcarray, hlength, hlength',
    hfurther, hown⟩ := hfacts
  exact ⟨root, hroot, c, hc, hentries, locate_of_declares (declares_iff.mpr ⟨hp, hm⟩) hparray
    hmarray hcarray (List.map_fst_zip hlength) (List.map_fst_zip hlength') hfurther
    (sameAll_iff.mp hown)⟩

/-- A class in an entry of the declaration that stands first may itself have the other one. Then its
casts come into the place of the model's. -/
theorem locate_of_class_in_entry :
    ∃ root ∈ parse ("<?php class User \x7b " ++
        "function casts() \x7b return ['a' => 'int', " ++
        "'b' => new class \x7b public $casts = ['z' => 'int']; \x7d]; \x7d " ++
        "protected $casts = ['c' => 'int']; \x7d"),
      ∃ c ∈ (parse ("<?php $x = ['c' => 'int', 'a' => 'int', " ++
        "'b' => new class \x7b public $casts = ['z' => 'int']; \x7d];")).bind
          (·.find? (·.is .array)),
      ∃ p ∈ ((root.firstClass?.bind fun model =>
          (model.membersOf .propertyDeclaration).find? (declaresProperty "casts")).bind
            (child? .propertyElement)).bind initializer?,
      ∃ m ∈ (root.firstClass?.bind fun model =>
          (model.membersOf .methodDeclaration).find? declaresCasts).bind firstReturn?,
        p.is .array = true ∧ m.is .array = true ∧
        sameAll (p.childrenOf .arrayElement ++ m.childrenOf .arrayElement)
          (c.childrenOf .arrayElement) = true ∧
        (literalMap (some c) ∅).entries = [("c", "int"), ("a", "int")] ∧
        (locate root ∅).entries = [("z", "int"), ("a", "int")] := by
  decide +kernel

end EloquentEntity.Casts

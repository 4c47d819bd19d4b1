import EloquentEntity.Proofs.Syntax.Names
import EloquentEntity.Proofs.Syntax.SameCode
import EloquentEntity.Table

/-!
The casts and the table of a model in a source that also has other classes.

The members that declare them are looked for in the whole source, and the first one decides. So
further declarations change nothing as long as none of them is the first to have such a member. One
that is the first puts what it declares in the place of what the model declares.
-/

namespace EloquentEntity.Syntax

open Syntax.Tree

/-- The first match in several lists stands in the first list that has one. -/
lemma find?_flatMap_eq {α β : Type} (f : α → List β) (p : β → Bool) (l : List α) :
    (l.flatMap f).find? p = (l.find? fun a => (f a).any p).bind fun a => (f a).find? p := by
  induction l with
  | nil => rfl
  | cons a l ih =>
    rw [List.flatMap_cons, List.find?_append, ih, List.find?_cons]
    split
    · next h =>
      obtain ⟨b, hb⟩ := Option.isSome_iff_exists.mp (List.find?_isSome.mpr (List.any_eq_true.mp h))
      rw [Option.bind_some, hb, Option.some_or]
    · next h =>
      have hnone : (f a).find? p = none := by simpa using h
      rw [hnone, Option.none_or]

/-! ### The top level of a source -/

namespace Tree

/-- The parts of a tree of that kind, or else the tree itself. -/
def inside (k : Kind) (t : Tree) : List Tree := if t.is k then t.children else [t]

/-- The statements of a source, and those in the braces of a namespace or of a block. -/
def topLevel (root : Tree) : List Tree :=
  (root.children.flatMap (inside .namespaceDeclaration)).flatMap (inside .block)

def enclosing : List Kind := [.program, .namespaceDeclaration, .block]

def has (p : Tree → Bool) (t : Tree) : Bool := t.preorder.any p

variable {p : Tree → Bool} {k k' : Kind} {root : Tree}

lemma kind_unique {t : Tree} (h : t.is k = true) (h' : t.is k' = true) : k = k' := by
  simp only [is, beq_iff_eq] at h h'
  exact Option.some.inj (h.symm.trans h')

lemma filter_preorderAll_inside (hp : ∀ t, p t = true → t.is k = true) (hk : k ≠ k')
    (ts : List Tree) :
    (preorderAll (ts.flatMap (inside k'))).filter p = (preorderAll ts).filter p := by
  induction ts with
  | nil => rfl
  | cons t ts ih =>
    have ht : (preorderAll (inside k' t)).filter p = t.preorder.filter p := by
      rw [inside]
      split
      · next hin =>
        rw [preorder_eq, List.filter_cons_of_neg fun h => hk (kind_unique (hp t h) hin)]
      · rw [preorderAll, preorderAll, List.append_nil]
    rw [List.flatMap_cons, preorderAll_append, List.filter_append, ih, ht, preorderAll,
      List.filter_append]

/-- What is no statement around others is found at the top level. -/
lemma filter_preorder_eq (hroot : root.is .program = true) (hp : ∀ t, p t = true → t.is k = true)
    (hk : k ∉ enclosing) :
    root.preorder.filter p = (preorderAll root.topLevel).filter p := by
  simp only [enclosing, List.mem_cons, List.not_mem_nil, or_false, not_or] at hk
  obtain ⟨hprogram, hnamespace, hblock⟩ := hk
  rw [topLevel, filter_preorderAll_inside hp hblock, filter_preorderAll_inside hp hnamespace,
    preorder_eq, List.filter_cons_of_neg fun h => hprogram (kind_unique (hp root h) hroot)]

/-- The first match stands in the first tree that has one. -/
lemma find?_preorderAll (p : Tree → Bool) (ts : List Tree) :
    (preorderAll ts).find? p = (ts.find? (·.has p)).bind (·.preorder.find? p) := by
  rw [preorderAll_eq_flatMap, find?_flatMap_eq]
  rfl

end Tree

/-! ### Further declarations -/

/-- Trees, each with a mark if it is a further one. -/
abbrev MarkedRow := List (Tree × Bool)

namespace MarkedRow

variable {row : MarkedRow} {ts : List Tree} {p : Tree → Bool}

def trees (row : MarkedRow) : List Tree := row.map (·.1)

def own (row : MarkedRow) : List Tree := trees (row.filter (!·.2))

def further (row : MarkedRow) : List Tree := trees (row.filter (·.2))

/-- The first tree that has a match, if any does, is not a further one. -/
def FirstIsOwn (p : Tree → Bool) (row : MarkedRow) : Prop :=
  ∀ x ∈ row.find? (·.1.has p), x.2 = false

instance : Decidable (FirstIsOwn p row) :=
  inferInstanceAs (Decidable (∀ x ∈ row.find? (·.1.has p), x.2 = false))

/-- What is looked for is then found where it was without the further trees. -/
lemma find?_related (h : List.Forall₂ Same ts row.own) (hp : ∀ t u, Same t u → p t = p u)
    (hfirst : row.FirstIsOwn p) :
    Option.Rel Same ((preorderAll ts).find? p) ((preorderAll row.trees).find? p) := by
  have hhas (t u : Tree) (htu : Same t u) : t.has p = u.has p := any_related htu.preorder hp
  suffices htrees : Option.Rel Same (ts.find? (·.has p)) (row.trees.find? (·.has p)) by
    rw [find?_preorderAll, find?_preorderAll]
    exact bind_related htrees fun t u htu => Syntax.find?_related htu.preorder hp
  induction row generalizing ts with
  | nil =>
    cases h
    exact .none
  | cons x row ih =>
    obtain ⟨u, mark⟩ := x
    rw [FirstIsOwn, List.find?_cons] at hfirst
    rw [trees, List.map_cons, List.find?_cons]
    cases mark with
    | true =>
      rw [own, List.filter_cons_of_neg (by simp)] at h
      split at hfirst
      · exact absurd (hfirst _ rfl) (by simp)
      · exact ih h hfirst
    | false =>
      rw [own, List.filter_cons_of_pos (by simp), trees, List.map_cons] at h
      cases h with
      | cons htu h =>
        rw [List.find?_cons, hhas _ _ htu]
        split at hfirst
        · exact .some htu
        · exact ih h hfirst

/-- What no further tree has is found just where it was. -/
lemma filter_related (h : List.Forall₂ Same ts row.own) (hp : ∀ t u, Same t u → p t = p u)
    (hno : ∀ u ∈ row.further, u.preorder.filter p = []) :
    List.Forall₂ Same ((preorderAll ts).filter p) ((preorderAll row.trees).filter p) := by
  induction row generalizing ts with
  | nil =>
    cases h
    exact .nil
  | cons x row ih =>
    obtain ⟨u, mark⟩ := x
    rw [trees, List.map_cons, preorderAll, List.filter_append]
    cases mark with
    | true =>
      rw [own, List.filter_cons_of_neg (by simp)] at h
      rw [further, List.filter_cons_of_pos (by simp), trees, List.map_cons,
        List.forall_mem_cons] at hno
      rw [hno.1, List.nil_append]
      exact ih h hno.2
    | false =>
      rw [further, List.filter_cons_of_neg (by simp)] at hno
      rw [own, List.filter_cons_of_pos (by simp), trees, List.map_cons] at h
      cases h with
      | cons htu h =>
        rw [preorderAll, List.filter_append]
        exact List.rel_append (Syntax.filter_related htu.preorder hp) (ih h hno)

end MarkedRow

/-- The top level of a source, with marks. -/
def Tree.markedRow (root : Tree) (marks : List Bool) : MarkedRow := root.topLevel.zip marks

def typeDeclarations : List Kind :=
  [.classDeclaration, .interfaceDeclaration, .traitDeclaration, .enumDeclaration]

/-- One source is another with further declarations at the top level, which stand where the marks
are. -/
structure Extends (marks : List Bool) (root root' : Tree) : Prop where
  length_eq : marks.length = root'.topLevel.length
  own : sameAll root.topLevel (root'.markedRow marks).own = true
  declarations : ∀ u ∈ (root'.markedRow marks).further, u.isOneOf typeDeclarations = true
  noImports : ∀ u ∈ (root'.markedRow marks).further, u.has (·.is .useDeclaration) = false

instance {marks : List Bool} {root root' : Tree} : Decidable (Extends marks root root') :=
  decidable_of_iff
    (marks.length = root'.topLevel.length ∧
      sameAll root.topLevel (root'.markedRow marks).own = true ∧
      (∀ u ∈ (root'.markedRow marks).further, u.isOneOf typeDeclarations = true) ∧
      ∀ u ∈ (root'.markedRow marks).further, u.has (·.is .useDeclaration) = false)
    ⟨fun ⟨hlength, hown, hdeclarations, hnoImports⟩ =>
      ⟨hlength, hown, hdeclarations, hnoImports⟩,
    fun h => ⟨h.length_eq, h.own, h.declarations, h.noImports⟩⟩

variable {marks : List Bool} {root root' : Tree} {p : Tree → Bool} {k : Kind}

namespace Extends

lemma trees_eq (h : Extends marks root root') :
    (root'.markedRow marks).trees = root'.topLevel := by
  rw [MarkedRow.trees, Tree.markedRow]
  exact List.map_fst_zip h.length_eq.ge

lemma find?_preorder (h : Extends marks root root') (hroot : root.is .program = true)
    (hroot' : root'.is .program = true) (hp : ∀ t, p t = true → t.is k = true)
    (hk : k ∉ enclosing)
    (hsame : ∀ t u, Same t u → p t = p u)
    (hfirst : (root'.markedRow marks).FirstIsOwn p) :
    Option.Rel Same (root.preorder.find? p) (root'.preorder.find? p) := by
  have hrow := MarkedRow.find?_related (sameAll_iff.mp h.own) hsame hfirst
  rw [h.trees_eq] at hrow
  rwa [← List.head?_filter, ← List.head?_filter, filter_preorder_eq hroot hp hk,
    filter_preorder_eq hroot' hp hk, List.head?_filter, List.head?_filter]

lemma filter_preorder (h : Extends marks root root') (hroot : root.is .program = true)
    (hroot' : root'.is .program = true) :
    List.Forall₂ Same (root.preorder.filter (·.is .useDeclaration))
      (root'.preorder.filter (·.is .useDeclaration)) := by
  have hno (u : Tree) (hu : u ∈ (root'.markedRow marks).further) :
      u.preorder.filter (·.is .useDeclaration) = [] := by
    rw [List.filter_eq_nil_iff]
    exact List.any_eq_false.mp (h.noImports u hu)
  have hrow := MarkedRow.filter_related (sameAll_iff.mp h.own) (fun _ _ h => (h.is_eq _).symm) hno
  rwa [h.trees_eq, ← filter_preorder_eq hroot (fun _ => id) (by decide),
    ← filter_preorder_eq hroot' (fun _ => id) (by decide)] at hrow

end Extends

end EloquentEntity.Syntax

namespace EloquentEntity

open Syntax Syntax.Tree

variable {t u root root' : Tree} {marks : List Bool} {name : String}

/-! ### The members that count -/

/-- A declaration, not of a static property, that is one of the property. -/
def declaresProperty (name : String) (d : Tree) : Bool :=
  d.is .propertyDeclaration &&
    (!d.isStatic && (d.childrenOf .propertyElement).any (·.propertyName == name))

/-- A method `casts` without parameters. -/
def declaresCasts (m : Tree) : Bool :=
  m.is .methodDeclaration && (m.declaredName == "casts" && m.parameterList.isEmpty)

lemma declaresProperty_eq (h : Same t u) : declaresProperty name t = declaresProperty name u := by
  have helements : (t.childrenOf .propertyElement).any (·.propertyName == name) =
      (u.childrenOf .propertyElement).any (·.propertyName == name) :=
    any_related (h.childrenOf _) fun _ _ hab => by rw [hab.propertyName_eq]
  rw [declaresProperty, declaresProperty, h.is_eq, h.isStatic_eq, helements]

lemma declaresCasts_eq (h : Same t u) : declaresCasts t = declaresCasts u := by
  rw [declaresCasts, declaresCasts, h.is_eq, h.declaredName_eq, isEmpty_related h.parameterList]

lemma propertyDefault?_eq (root : Tree) (name : String) :
    root.propertyDefault? name false =
      ((root.preorder.find? (declaresProperty name)).bind fun d =>
        (d.childrenOf .propertyElement).find? (·.propertyName == name)).bind initializer? := by
  rw [propertyDefault?, properties, findAll, walk_eq, find?_flatMap_eq]
  simp only [List.find?_filter, Bool.decide_and, Bool.decide_eq_true, Bool.false_or]
  rfl

lemma castsMethod?_eq (root : Tree) :
    Casts.castsMethod? root = root.preorder.find? declaresCasts := by
  rw [Casts.castsMethod?, findAll, walk_eq]
  simp only [List.find?_filter, Bool.decide_and, Bool.decide_eq_true]
  rfl

/-! ### What the model declares -/

section Extends

variable (h : Extends marks root root') (hroot : root.is .program = true)
  (hroot' : root'.is .program = true)

include h hroot hroot'

lemma propertyDefault?_related
    (hfirst : (root'.markedRow marks).FirstIsOwn (declaresProperty name)) :
    Option.Rel Same (root.propertyDefault? name false) (root'.propertyDefault? name false) := by
  have hp (t : Tree) (ht : declaresProperty name t = true) : t.is .propertyDeclaration = true :=
    (Bool.and_eq_true_iff.mp ht).1
  have hdeclaration := h.find?_preorder hroot hroot' hp (by decide)
    (fun _ _ => declaresProperty_eq) hfirst
  rw [propertyDefault?_eq, propertyDefault?_eq]
  refine bind_related (bind_related hdeclaration fun a b hab => ?_) fun _ _ => Same.initializer?
  exact find?_related (hab.childrenOf .propertyElement) fun _ _ hab => by rw [hab.propertyName_eq]

lemma castsMethod?_related (hfirst : (root'.markedRow marks).FirstIsOwn declaresCasts) :
    Option.Rel Same (Casts.castsMethod? root) (Casts.castsMethod? root') := by
  have hp (t : Tree) (ht : declaresCasts t = true) : t.is .methodDeclaration = true :=
    (Bool.and_eq_true_iff.mp ht).1
  rw [castsMethod?_eq, castsMethod?_eq]
  exact h.find?_preorder hroot hroot' hp (by decide) (fun _ _ => declaresCasts_eq) hfirst

lemma collect_of_extends : Imports.collect root' = Imports.collect root := by
  have hentries : Imports.entries root = Imports.entries root' := by
    rw [Imports.entries, Imports.entries, findAll, findAll, walk_eq, walk_eq]
    exact flatMap_related (h.filter_preorder hroot hroot') fun _ _ => Imports.declarationEntries_eq
  rw [Imports.collect, Imports.collect, hentries]

end Extends

/-- **Other classes in a source leave the model's casts and table alone**, if none of them is the
first to have a property `$casts`, a method `casts()` or a property `$table`. -/
theorem declared_of_extends {source source' : String} (hparse : parse source = some root)
    (hparse' : parse source' = some root') (h : Extends marks root root')
    (hcasts : (root'.markedRow marks).FirstIsOwn (declaresProperty "casts"))
    (hmethod : (root'.markedRow marks).FirstIsOwn declaresCasts)
    (htable : (root'.markedRow marks).FirstIsOwn (declaresProperty "table")) :
    Casts.locate root' (Imports.collect root') = Casts.locate root (Imports.collect root) ∧
      ∀ model override, tableOf root' model override = tableOf root model override := by
  have hroot := is_program_of_parse hparse
  have hroot' := is_program_of_parse hparse'
  refine ⟨?_, fun model override => ?_⟩
  · rw [collect_of_extends h hroot hroot', Casts.locate, Casts.locate, Casts.ofProperty,
      Casts.ofProperty, Casts.ofMethod, Casts.ofMethod,
      Casts.literalMap_eq (propertyDefault?_related h hroot hroot' hcasts),
      Casts.literalMap_eq (bind_related (castsMethod?_related h hroot hroot' hmethod)
        fun _ _ hab => hab.firstReturn?)]
  · have hvalue : (root'.propertyDefault? "table" false).bind Literal.value? =
        (root.propertyDefault? "table" false).bind Literal.value? := by
      rcases cases_related (propertyDefault?_related h hroot hroot' htable) with
        ⟨ht, hu⟩ | ⟨a, b, ht, hu, hab⟩ <;> rw [ht, hu]
      exact hab.value?_eq
    rw [tableOf, tableOf, declaredTable?, declaredTable?, hvalue]

def modelAlone : String :=
  "<?php class User \x7b protected $table = 'u', $casts = ['a' => 'int']; \x7d"

def modelAmongOthers : String :=
  "<?php trait Named \x7b \x7d " ++
    "class User \x7b protected $table = 'u', $casts = ['a' => 'int']; \x7d " ++
    "class Other \x7b protected $table = 'o', $casts = ['b' => 'int']; \x7d"

/-- The model keeps its cast and its table. -/
theorem declared_of_extends_user :
    ∃ root ∈ parse modelAlone, ∃ root' ∈ parse modelAmongOthers,
      Extends [true, false, true, false] root root' ∧
      (Casts.locate root' (Imports.collect root')).entries = [("a", "int")] ∧
      tableOf root' "User" none = "u" ∧
      Casts.locate root' (Imports.collect root') = Casts.locate root (Imports.collect root) ∧
      ∀ model override, tableOf root' model override = tableOf root model override := by
  have hfacts : ∃ root ∈ parse modelAlone, ∃ root' ∈ parse modelAmongOthers,
      Extends [true, false, true, false] root root' ∧
      (root'.markedRow [true, false, true, false]).FirstIsOwn (declaresProperty "casts") ∧
      (root'.markedRow [true, false, true, false]).FirstIsOwn declaresCasts ∧
      (root'.markedRow [true, false, true, false]).FirstIsOwn (declaresProperty "table") ∧
      (Casts.locate root' (Imports.collect root')).entries = [("a", "int")] ∧
      tableOf root' "User" none = "u" := by
    decide +kernel
  obtain ⟨root, hparse, root', hparse', h, hcasts, hmethod, htable, hentries, hname⟩ := hfacts
  exact ⟨root, hparse, root', hparse', h, hentries, hname,
    declared_of_extends hparse hparse' h hcasts hmethod htable⟩

/-- A class of another name after a model without casts gives it its own. -/
theorem casts_of_other_class :
    ∃ root ∈ parse "<?php class User \x7b\x7d",
      ∃ root' ∈ parse ("<?php class User \x7b\x7d " ++
          "class Other \x7b protected $casts = ['a' => 'int']; \x7d"),
      Extends [false, true, false] root root' ∧
      root.firstClass?.map declaredName = some "User" ∧
      (∀ u ∈ (root'.markedRow [false, true, false]).further, u.declaredName = "Other") ∧
      (Casts.locate root (Imports.collect root)).entries = [] ∧
      (Casts.locate root' (Imports.collect root')).entries = [("a", "int")] := by
  decide +kernel

end EloquentEntity

import EloquentEntity.Casts.Declaration
import EloquentEntity.Proofs.Syntax.Tree
import EloquentEntity.Table
import Mathlib.Data.List.Forall2

/-!
What is found out about a tree, from what it looks like.

The accessors of trees go by kinds and by the words of a few nodes. A relation of trees that agree
in these is carried through all that the program finds out: imports, casts and table.
-/

namespace EloquentEntity.Syntax

/-! ### Lists of related things -/

section Related

variable {α β : Type} {R : α → β → Prop} {p : α → Bool} {q : β → Bool} {l : List α} {m : List β}

lemma filter_related_fits (h : List.Forall₂ R l m) (hpq : ∀ a b, R a b → p a = q b) :
    List.Forall₂ (fun a b => R a b ∧ p a = true) (l.filter p) (m.filter q) := by
  induction h with
  | nil => exact .nil
  | @cons a _ _ _ hab _ ih =>
    rw [List.filter_cons, List.filter_cons, ← hpq _ _ hab]
    by_cases ha : p a = true
    · rw [if_pos ha, if_pos ha]
      exact .cons ⟨hab, ha⟩ ih
    · rw [if_neg ha, if_neg ha]
      exact ih

lemma filter_related (h : List.Forall₂ R l m) (hpq : ∀ a b, R a b → p a = q b) :
    List.Forall₂ R (l.filter p) (m.filter q) :=
  (filter_related_fits h hpq).imp fun _ _ hab => hab.1

lemma find?_related_fits (h : List.Forall₂ R l m) (hpq : ∀ a b, R a b → p a = q b) :
    Option.Rel (fun a b => R a b ∧ p a = true) (l.find? p) (m.find? q) := by
  induction h with
  | nil => exact .none
  | @cons a _ _ _ hab _ ih =>
    rw [List.find?_cons, List.find?_cons, ← hpq _ _ hab]
    cases ha : p a with
    | true => exact .some ⟨hab, ha⟩
    | false => exact ih

lemma find?_related (h : List.Forall₂ R l m) (hpq : ∀ a b, R a b → p a = q b) :
    Option.Rel R (l.find? p) (m.find? q) := by
  have hfind := find?_related_fits h hpq
  generalize l.find? p = x at hfind ⊢
  generalize m.find? q = y at hfind ⊢
  cases hfind with
  | none => exact .none
  | some hab => exact .some hab.1

lemma any_related (h : List.Forall₂ R l m) (hpq : ∀ a b, R a b → p a = q b) :
    l.any p = m.any q := by
  induction h with
  | nil => rfl
  | cons hab _ ih => rw [List.any_cons, List.any_cons, hpq _ _ hab, ih]

lemma isEmpty_related (h : List.Forall₂ R l m) : l.isEmpty = m.isEmpty := by cases h <;> rfl

lemma getElem?_related (h : List.Forall₂ R l m) (i : Nat) : Option.Rel R l[i]? m[i]? := by
  induction h generalizing i with
  | nil => exact .none
  | cons hab _ ih =>
    cases i with
    | zero => exact .some hab
    | succ i => simpa using ih i

lemma getLast?_related (h : List.Forall₂ R l m) : Option.Rel R l.getLast? m.getLast? := by
  rw [List.getLast?_eq_getElem?, List.getLast?_eq_getElem?, h.length_eq]
  exact getElem?_related h _

lemma flatMap_related {γ : Type} {f : α → List γ} {g : β → List γ} (h : List.Forall₂ R l m)
    (hfg : ∀ a b, R a b → f a = g b) : l.flatMap f = m.flatMap g := by
  induction h with
  | nil => rfl
  | cons hab _ ih => rw [List.flatMap_cons, List.flatMap_cons, hfg _ _ hab, ih]

lemma filterMap_related {γ : Type} {f : α → Option γ} {g : β → Option γ} (h : List.Forall₂ R l m)
    (hfg : ∀ a b, R a b → f a = g b) : l.filterMap f = m.filterMap g := by
  induction h with
  | nil => rfl
  | cons hab _ ih => rw [List.filterMap_cons, List.filterMap_cons, hfg _ _ hab, ih]

variable {x : Option α} {y : Option β}

lemma cases_related (h : Option.Rel R x y) :
    (x = none ∧ y = none) ∨ ∃ a b, x = some a ∧ y = some b ∧ R a b := by
  cases h with
  | none => exact .inl ⟨rfl, rfl⟩
  | some hab => exact .inr ⟨_, _, rfl, rfl, hab⟩

lemma bind_related {γ δ : Type} {S : γ → δ → Prop} {f : α → Option γ} {g : β → Option δ}
    (h : Option.Rel R x y) (hfg : ∀ a b, R a b → Option.Rel S (f a) (g b)) :
    Option.Rel S (x.bind f) (y.bind g) := by
  cases h with
  | none => exact .none
  | some hab => exact hfg _ _ hab

lemma map_related {γ : Type} {f : α → γ} {g : β → γ} (h : Option.Rel R x y)
    (hfg : ∀ a b, R a b → f a = g b) : x.map f = y.map g := by
  cases h with
  | none => rfl
  | some hab => exact congrArg some (hfg _ _ hab)

end Related

namespace Tree

/-- Related trees have the same form: the same kinds of nodes over the same words. -/
structure SameForm (R : Tree → Tree → Prop) : Prop where
  kind?_eq {t u : Tree} : R t u → u.kind? = t.kind?
  children {t u : Tree} : R t u → List.Forall₂ R t.children u.children
  /-- Words are the same to every pattern, unless it asks for what stands before them. -/
  hasToken_eq {t u : Tree} {p : Pattern} : R t u → p ≠ .afterTag → u.hasToken p = t.hasToken p

variable {R : Tree → Tree → Prop} {t u root root' : Tree}

namespace SameForm

mutual

lemma preorder (hR : SameForm R) : ∀ {t u : Tree}, R t u → List.Forall₂ R t.preorder u.preorder
  | leaf t, u, h => by
    rw [preorder_eq u, List.forall₂_nil_left_iff.mp (hR.children h)]
    exact .cons h .nil
  | node k ts, u, h => by
    rw [preorder_eq u]
    exact .cons h (preorderAll hR (hR.children h))

lemma preorderAll (hR : SameForm R) : ∀ {ts us : List Tree}, List.Forall₂ R ts us →
    List.Forall₂ R (Tree.preorderAll ts) (Tree.preorderAll us)
  | [], [], _ => .nil
  | t :: ts, u :: us, h => by
    obtain ⟨htu, h⟩ := List.forall₂_cons.mp h
    exact List.rel_append (preorder hR htu) (preorderAll hR h)

end

variable (hR : SameForm R)

include hR

lemma is_eq (h : R t u) (k : Kind) : u.is k = t.is k := by rw [is, is, hR.kind?_eq h]

lemma nodes (h : R t u) : List.Forall₂ R t.nodes u.nodes :=
  filter_related (hR.children h) fun _ _ h => by rw [hR.kind?_eq h]

lemma childrenOf_fits (h : R t u) (k : Kind) :
    List.Forall₂ (fun a b => R a b ∧ a.is k = true) (t.childrenOf k) (u.childrenOf k) :=
  filter_related_fits (hR.children h) fun _ _ h => (hR.is_eq h k).symm

lemma childrenOf (h : R t u) (k : Kind) : List.Forall₂ R (t.childrenOf k) (u.childrenOf k) :=
  (hR.childrenOf_fits h k).imp fun _ _ hab => hab.1

lemma child?_fits (h : R t u) (k : Kind) :
    Option.Rel (fun a b => R a b ∧ a.is k = true) (t.child? k) (u.child? k) :=
  find?_related_fits (hR.children h) fun _ _ h => (hR.is_eq h k).symm

lemma child? (h : R t u) (k : Kind) : Option.Rel R (t.child? k) (u.child? k) :=
  find?_related (hR.children h) fun _ _ h => (hR.is_eq h k).symm

lemma findAll (h : R t u) (k : Kind) :
    List.Forall₂ R (t.findAll (·.is k)) (u.findAll (·.is k)) := by
  rw [Tree.findAll, Tree.findAll, walk_eq, walk_eq]
  exact filter_related (hR.preorder h) fun _ _ h => (hR.is_eq h k).symm

lemma head?_nodes (h : R t u) : Option.Rel R t.nodes.head? u.nodes.head? := by
  rw [List.head?_eq_getElem?, List.head?_eq_getElem?]
  exact getElem?_related (hR.nodes h) 0

lemma isStatic_eq (h : R t u) : u.isStatic = t.isStatic := by
  rw [isStatic, isStatic]
  rcases cases_related (hR.child? h .staticModifier) with ⟨ht, hu⟩ | ⟨a, b, ht, hu, -⟩ <;>
    rw [ht, hu]
  rfl

lemma parameterList (h : R t u) : List.Forall₂ R t.parameterList u.parameterList := by
  rw [Tree.parameterList, Tree.parameterList]
  rcases cases_related (hR.child? h .parameters) with ⟨ht, hu⟩ | ⟨a, b, ht, hu, hab⟩ <;> rw [ht, hu]
  · exact .nil
  · exact hR.childrenOf hab .parameter

lemma firstReturn? (h : R t u) : Option.Rel R t.firstReturn? u.firstReturn? :=
  bind_related (bind_related (hR.child? h .block) fun _ _ h => hR.child? h .returnStatement)
    fun _ _ h => hR.head?_nodes h

lemma initializer? (h : R t u) : Option.Rel R t.initializer? u.initializer? :=
  getElem?_related (hR.nodes h) 1

lemma isNoClass_eq (h : R t u) : Imports.isNoClass u = Imports.isNoClass t :=
  hR.hasToken_eq h (by decide)

end SameForm

/-- Related trees agree in all that is read off single nodes. -/
structure Agreement (R : Tree → Tree → Prop) : Prop extends SameForm R where
  text_eq {t u : Tree} : R t u → t.is .name = true → u.text = t.text
  nameText_eq {t u : Tree} : R t u → t.is .namespaceName = true → u.nameText = t.nameText
  propertyName_eq {t u : Tree} :
    R t u → t.is .propertyElement = true → u.propertyName = t.propertyName
  value?_eq {t u : Tree} : R t u → Literal.value? u = Literal.value? t
  classReference?_eq {t u : Tree} : R t u → ∀ imports,
    Casts.classReference? u imports = Casts.classReference? t imports
  clauseParts?_eq {t u : Tree} :
    R t u → t.is .useClause = true → Imports.clauseParts? u = Imports.clauseParts? t

namespace Agreement

variable (hR : Agreement R)

include hR

/-! ### Imports -/

lemma classClauses_eq (h : R t u) : Imports.classClauses t = Imports.classClauses u :=
  filterMap_related
    (filter_related (hR.childrenOf_fits h .useClause) fun _ _ hab => by rw [hR.isNoClass_eq hab.1])
    fun _ _ hab => (hR.clauseParts?_eq hab.1 hab.2).symm

lemma declarationEntries_eq (h : R t u) :
    Imports.declarationEntries t = Imports.declarationEntries u := by
  have hbase : (t.child? .namespaceName).map (fun n => ClassName.bare n.nameText) =
      (u.child? .namespaceName).map fun n => ClassName.bare n.nameText :=
    map_related (hR.child?_fits h _) fun _ _ hab => by rw [hR.nameText_eq hab.1 hab.2]
  rw [Imports.declarationEntries, Imports.declarationEntries, hR.isNoClass_eq h,
    hR.classClauses_eq h, hbase]
  rcases cases_related (hR.child? h .useGroup) with ⟨ht, hu⟩ | ⟨a, b, ht, hu, hab⟩ <;> rw [ht, hu]
  simp only [hR.classClauses_eq hab]

lemma descriptor?_eq (h : R t u) (imports : Imports) :
    Casts.descriptor? u imports = Casts.descriptor? t imports := by
  rw [Casts.descriptor?, Casts.descriptor?, hR.value?_eq h, hR.classReference?_eq h]

lemma literalEntry_eq (imports : Imports) (h : R t u) :
    Casts.literalEntry imports t = Casts.literalEntry imports u := by
  have hnodes := hR.nodes h
  rw [Casts.literalEntry, Casts.literalEntry, hR.hasToken_eq h (by decide)]
  generalize t.hasToken (.symbol "=>") = hasArrow
  generalize t.nodes = ts at hnodes
  generalize u.nodes = us at hnodes
  cases hasArrow with
  | false => rfl
  | true =>
    rcases hnodes with _ | ⟨hkey, _ | ⟨hvalue, _ | _⟩⟩
    · rfl
    · rfl
    · simp only [hR.value?_eq hkey, hR.descriptor?_eq hvalue]
    · rfl

lemma literalMap_eq {t u : Option Tree} (h : Option.Rel R t u) (imports : Imports) :
    Casts.literalMap u imports = Casts.literalMap t imports := by
  cases h with
  | none => rfl
  | some h =>
    rw [Casts.literalMap, Casts.literalMap, Casts.entries, Casts.entries, hR.is_eq h]
    split
    · rw [filterMap_related (hR.childrenOf h .arrayElement) fun _ _ => hR.literalEntry_eq imports]
    · rfl

/-! ### Members -/

lemma declaredName_eq (h : R t u) : u.declaredName = t.declaredName := by
  rw [declaredName, declaredName, map_related (hR.child?_fits h .name) fun a b hab => ?_]
  rw [sourceText, sourceText, hR.text_eq hab.1 hab.2]

lemma properties (h : R root root') (allowStatic : Bool) :
    List.Forall₂ (fun a b => R a b ∧ a.is .propertyElement = true)
      (root.properties allowStatic) (root'.properties allowStatic) := by
  refine List.rel_flatMap (filter_related (hR.findAll h .propertyDeclaration) fun _ _ hab => ?_)
    fun _ _ hab => hR.childrenOf_fits hab .propertyElement
  rw [hR.isStatic_eq hab]

lemma propertyDefault? (h : R root root') (name : String) (allowStatic : Bool) :
    Option.Rel R (root.propertyDefault? name allowStatic)
      (root'.propertyDefault? name allowStatic) := by
  refine bind_related (find?_related (hR.properties h allowStatic) fun _ _ hab => ?_)
    fun _ _ hab => hR.initializer? hab.1
  rw [hR.propertyName_eq hab.1 hab.2]

lemma castsMethod? (h : R root root') :
    Option.Rel R (Casts.castsMethod? root) (Casts.castsMethod? root') :=
  find?_related (hR.findAll h .methodDeclaration) fun _ _ hab => by
    rw [hR.declaredName_eq hab, isEmpty_related (hR.parameterList hab)]

end Agreement

end Tree

end EloquentEntity.Syntax

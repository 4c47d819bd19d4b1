import EloquentEntity.Proofs.Syntax.Agreement

/-!
Trees of the same code in two sources.

They differ at most in what stands before their first words, which no part of the program looks at.
So whatever is found out about the one is found out about the other.
-/

namespace EloquentEntity.Syntax

namespace Tree

mutual

/-- The same nodes over the same words, each with the same source text. -/
def same : Tree → Tree → Bool
  | leaf t, leaf u => t.kind == u.kind && t.text == u.text
  | node k ts, node j us => k == j && (node k ts).text == (node j us).text && sameAll ts us
  | _, _ => false

def sameAll : List Tree → List Tree → Bool
  | [], [] => true
  | t :: ts, u :: us => same t u && sameAll ts us
  | _, _ => false

end

/-- The trees are of the same code. -/
def Same (t u : Tree) : Prop := t.same u = true

variable {t u : Tree} {ts us : List Tree} {k : Kind}

lemma sameAll_iff : sameAll ts us = true ↔ List.Forall₂ Same ts us := by
  induction ts generalizing us with
  | nil => cases us <;> simp [sameAll]
  | cons t ts ih => cases us <;> simp [sameAll, ih, Same]

namespace Same

lemma kind?_eq (h : Same t u) : u.kind? = t.kind? := by
  cases t <;> cases u <;> simp_all [Same, same, kind?]

lemma text_eq (h : Same t u) : u.text = t.text := by
  cases t <;> cases u <;> simp_all [Same, same, text, tokens, joinTokens]

lemma children (h : Same t u) : List.Forall₂ Same t.children u.children := by
  cases t <;> cases u <;> simp_all [Same, same, Tree.children, sameAll_iff]

/-- Words are the same to every pattern, unless it asks for what stands before them. -/
lemma hasToken_eq (h : Same t u) {p : Pattern} (hp : p ≠ .afterTag) :
    u.hasToken p = t.hasToken p := by
  have haccepts {l l' : Lexeme} (hk : l.kind = l'.kind) (ht : l.text = l'.text) :
      p.accepts l = p.accepts l' := by
    cases p <;> first | exact absurd rfl hp | simp only [Pattern.accepts, hk, ht]
  refine (any_related h.children fun a b hab => ?_).symm
  cases a with
  | leaf a =>
    cases b with
    | leaf b =>
      simp only [Same, same, Bool.and_eq_true, beq_iff_eq] at hab
      exact haccepts hab.1 hab.2
    | node => cases hab
  | node =>
    cases b with
    | leaf => cases hab
    | node => rfl

lemma sameForm : SameForm Same := ⟨kind?_eq, children, fun h hp => h.hasToken_eq hp⟩

lemma is_eq (h : Same t u) (k : Kind) : u.is k = t.is k := sameForm.is_eq h k

lemma nodes (h : Same t u) : List.Forall₂ Same t.nodes u.nodes := sameForm.nodes h

lemma childrenOf (h : Same t u) (k : Kind) : List.Forall₂ Same (t.childrenOf k) (u.childrenOf k) :=
  sameForm.childrenOf h k

lemma preorder (h : Same t u) : List.Forall₂ Same t.preorder u.preorder := sameForm.preorder h

lemma isStatic_eq (h : Same t u) : u.isStatic = t.isStatic := sameForm.isStatic_eq h

lemma parameterList (h : Same t u) : List.Forall₂ Same t.parameterList u.parameterList :=
  sameForm.parameterList h

lemma firstReturn? (h : Same t u) : Option.Rel Same t.firstReturn? u.firstReturn? :=
  sameForm.firstReturn? h

lemma initializer? (h : Same t u) : Option.Rel Same t.initializer? u.initializer? :=
  sameForm.initializer? h

/-! ### What is read off single nodes -/

lemma nameText_eq (h : Same t u) : u.nameText = t.nameText := by rw [nameText, nameText, h.text_eq]

lemma propertyName_eq (h : Same t u) : u.propertyName = t.propertyName := by
  rw [propertyName, propertyName]
  rcases cases_related (sameForm.child? h .variableName) with ⟨ht, hu⟩ | ⟨a, b, ht, hu, hab⟩ <;>
    rw [ht, hu]
  simp only [hab.text_eq]

lemma value?_eq (h : Same t u) : Literal.value? u = Literal.value? t := by
  rw [Literal.value?, Literal.value?, h.kind?_eq, h.text_eq]

lemma classReference?_eq (h : Same t u) (imports : Imports) :
    Casts.classReference? u imports = Casts.classReference? t imports := by
  have hnodes := h.nodes
  rw [Casts.classReference?, Casts.classReference?, h.is_eq]
  generalize t.is .classConstant = isConstant
  generalize t.nodes = ts at hnodes
  generalize u.nodes = us at hnodes
  cases isConstant with
  | false => rfl
  | true =>
    cases hnodes with
    | nil => rfl
    | cons hscope hnodes =>
      cases hnodes with
      | nil => rfl
      | cons hpart hmore =>
        have hlast := getLast?_related (List.Forall₂.cons hpart hmore)
        dsimp only
        rw [hscope.nameText_eq]
        rcases cases_related hlast with ⟨ht, hu⟩ | ⟨a, b, ht, hu, hab⟩ <;> rw [ht, hu]
        · simp only [Option.getD_none, hpart.text_eq]
        · simp only [Option.getD_some, hab.text_eq]

lemma clauseParts?_eq (h : Same t u) : Imports.clauseParts? u = Imports.clauseParts? t := by
  have hnodes := h.nodes
  rw [Imports.clauseParts?, Imports.clauseParts?]
  generalize t.nodes = ts at hnodes
  generalize u.nodes = us at hnodes
  cases hnodes with
  | nil => rfl
  | cons hname hmore =>
    dsimp only
    rw [hname.nameText_eq,
      map_related (getLast?_related hmore) fun _ _ hab => hab.nameText_eq.symm]

lemma agreement : Agreement Same where
  toSameForm := sameForm
  text_eq h _ := h.text_eq
  nameText_eq h _ := h.nameText_eq
  propertyName_eq h _ := h.propertyName_eq
  value?_eq h := h.value?_eq
  classReference?_eq h := h.classReference?_eq
  clauseParts?_eq h _ := h.clauseParts?_eq

lemma declaredName_eq (h : Same t u) : u.declaredName = t.declaredName :=
  agreement.declaredName_eq h

end Same

end Tree

end EloquentEntity.Syntax

namespace EloquentEntity

open Syntax Syntax.Tree

variable {t u : Tree}

lemma Casts.literalMap_eq {t u : Option Tree} (h : Option.Rel Same t u) (imports : Imports) :
    literalMap u imports = literalMap t imports := Same.agreement.literalMap_eq h imports

lemma Imports.isNoClass_eq (h : Same t u) : isNoClass t = isNoClass u :=
  (Same.sameForm.isNoClass_eq h).symm

lemma Imports.clauseParts?_eq (h : Same t u) : clauseParts? t = clauseParts? u :=
  h.clauseParts?_eq.symm

lemma Imports.declarationEntries_eq (h : Same t u) : declarationEntries t = declarationEntries u :=
  Same.agreement.declarationEntries_eq h

end EloquentEntity

import EloquentEntity.Proofs.Syntax.Respaced
import EloquentEntity.Proofs.Syntax.Spelling

/-!
White space and comments between tokens change nothing that is found out about a source.
-/

namespace EloquentEntity.Syntax

open Syntax.Tree

variable {source : String} {root : Tree} {p : Place source} {w : List Char} {t u : Tree}

lemma isBlank_of_isSpace {c : Char} (h : isSpace c = true) (hlow : c.toNat < 128) :
    Text.isBlank c = true := by
  have hspace := toNat_of_isSpace h
  simp only [Text.isBlank, Bool.or_eq_true, Bool.and_eq_true, decide_eq_true_eq]
  omega

lemma isWordStart_of_stops {c : Char} {s : List Char} (h : Stops (c :: s)) :
    isWordStart c = false := h.eq_false fun _ => isWordPart_of_isWordStart

/-! ### Nodes around the place -/

namespace Respaced

lemma nameText_eq_of_text (h : u.text = t.text) : u.nameText = t.nameText := by
  rw [nameText, nameText, h]

lemma text_eq_of_isUnit (hroot : parse source = some root) (h : Respaced p w t u)
    (ht : t.isUnit = true) : u.text = t.text := by
  rcases h.text_cases hroot with htext | ⟨n, -, -, hallows, -⟩
  · exact htext
  · rw [hallows.unit] at ht
    cases ht

lemma isUnit_of_is {k : Kind} (h : t.is k = true) (hk : k ∈ unitKinds) : t.isUnit = true :=
  List.any_eq_true.mpr ⟨k, hk, h⟩

lemma value?_eq_none (ht : t.isUnit = false) : Literal.value? t = none := by
  have hkind {k : Kind} (hk : k ∈ unitKinds) (h : t.kind? = some k) : False := by
    rw [isUnit_of_is (t := t) (k := k) (by simp [is, h]) hk] at ht
    cases ht
  rw [Literal.value?]
  split
  · next h => exact (hkind (by decide) h).elim
  · next h => exact (hkind (by decide) h).elim
  · next h => exact (hkind (by decide) h).elim
  · next h => exact (hkind (by decide) h).elim
  · rfl

lemma nameText_eq_of_isWhiteSpace (hroot : parse source = some root) (h : Respaced p w t u)
    (hw : IsWhiteSpace w) : u.nameText = t.nameText := by
  rcases h.text_cases hroot with htext | ⟨n, l, r, -, ht, hu, -⟩
  · exact nameText_eq_of_text htext
  · have hblank : Text.withoutBlanks w = [] := by
      rw [Text.withoutBlanks, List.filter_eq_nil_iff]
      intro c hc
      obtain ⟨hspace, hlow⟩ := hw c hc
      simp [isBlank_of_isSpace hspace hlow]
    rw [nameText, nameText, ht, hu, withoutBlanks_append, withoutBlanks_append,
      withoutBlanks_append, hblank, List.nil_append]

lemma value?_eq (hroot : parse source = some root) (h : Respaced p w t u) :
    Literal.value? u = Literal.value? t := by
  cases ht : t.isUnit with
  | true => rw [Literal.value?, Literal.value?, h.alike.kind?_eq, h.text_eq_of_isUnit hroot ht]
  | false =>
    have hu : u.isUnit = false := by
      simpa only [isUnit, isOneOf, is, h.alike.kind?_eq] using ht
    rw [value?_eq_none ht, value?_eq_none hu]

lemma propertyName_eq (h : Respaced p w t u) (ht : t.is .propertyElement = true) :
    u.propertyName = t.propertyName := by
  have hvariable := h.find? (q := (·.is .variableName)) (fun h => by rw [is, is, h.kind?_eq])
    fun n hallows => hallows.property ht
  rw [propertyName, propertyName, child?, child?]
  rcases cases_related hvariable with ⟨ht, hu⟩ | ⟨a, b, ht, hu, hab⟩ <;> rw [ht, hu]
  simp only [hab]

/-- The word `class` is not parted, and nothing else becomes it. -/
lemma lower_eq_iff (hroot : parse source = some root) (hw : Filler w) (h : Respaced p w t u) :
    Text.lower u.text = "class".toList ↔ Text.lower t.text = "class".toList := by
  rcases h.text_cases hroot with htext | ⟨n, l, r, -, ht, hu, hletters⟩
  · rw [htext]
  · refine ⟨fun hlower => ?_, fun hlower => absurd (Text.isWordStart_of_lower hlower) hletters⟩
    have hall := Text.isWordStart_of_lower hlower
    obtain ⟨c, v, rfl⟩ := List.exists_cons_of_ne_nil hw.ne_nil
    have hc := hall c (by rw [hu]; simp)
    rw [isWordStart_of_stops (hw.stops [])] at hc
    cases hc

lemma nodes (h : Respaced p w t u) : List.Forall₂ (Respaced p w) t.nodes u.nodes :=
  filter_related h.children fun _ _ h => by rw [h.alike.kind?_eq]

lemma scope_eq (hroot : parse source = some root) (hw : Filler w) (h : Respaced p w t u)
    (ht : t.isClassName = true) :
    Option.Rel (fun t u => u.nameText = t.nameText) t.nodes.head? u.nodes.head? := by
  cases hw with
  | whiteSpace _ hw =>
    rw [List.head?_eq_getElem?, List.head?_eq_getElem?]
    exact getElem?_related (h.nodes.imp fun _ _ h => h.nameText_eq_of_isWhiteSpace hroot hw) 0
  | comment hw =>
    have hscope := h.find? (q := (·.kind?.isSome)) (fun h => by rw [h.kind?_eq])
      fun n hallows => hallows.operand rfl ht
    rw [Tree.nodes, Tree.nodes, List.head?_filter, List.head?_filter]
    rcases cases_related hscope with ⟨ht, hu⟩ | ⟨a, b, ht, hu, hab⟩ <;> rw [ht, hu]
    · exact .none
    · exact .some (nameText_eq_of_text hab)

lemma classReference?_eq (hroot : parse source = some root) (hw : Filler w) (h : Respaced p w t u)
    (imports : Imports) : Casts.classReference? u imports = Casts.classReference? t imports := by
  have hnodes := h.nodes
  have hscope := h.scope_eq hroot hw
  rw [Casts.classReference?, Casts.classReference?]
  have his : u.is .classConstant = t.is .classConstant := by rw [is, is, h.alike.kind?_eq]
  rw [his]
  rw [isClassName] at hscope
  generalize t.is .classConstant = isConstant at hscope ⊢
  generalize t.nodes = ts at hnodes hscope ⊢
  generalize u.nodes = us at hnodes hscope ⊢
  cases isConstant with
  | false => rfl
  | true =>
    rcases hnodes with _ | ⟨_, _ | ⟨hpart, hmore⟩⟩
    · rfl
    · rfl
    · have hlast := getLast?_related (List.Forall₂.cons hpart hmore)
      rcases cases_related hlast with ⟨ht, hu⟩ | ⟨a, b, ht, hu, hab⟩
      · simp at ht
      · dsimp only
        rw [ht, hu, Option.getD_some, Option.getD_some]
        have hmark : (Text.lower b.text != "class".toList) =
            (Text.lower a.text != "class".toList) := by
          rw [Bool.eq_iff_iff, bne_iff_ne, bne_iff_ne, Ne, Ne, hab.lower_eq_iff hroot hw]
        rw [hmark]
        by_cases hclass : Text.lower a.text = "class".toList
        · have hname := hscope (by rw [List.getLast?_cons_cons, ht]; simpa using hclass)
          rw [List.head?_cons, List.head?_cons, Option.rel_some_some] at hname
          rw [hname]
        · simp only [bne_iff_ne.mpr hclass, Bool.true_or, if_true]

end Respaced

/-! ### Trees of a source that parses -/

/-- The trees of a source and of the source with the insertion. -/
def Corresponds (p : Place source) (w : List Char) (t u : Tree) : Prop :=
  t.Shaped NameShape ∧ Respaced p w t u

namespace Corresponds

lemma sameForm : SameForm (Corresponds p w) where
  kind?_eq h := h.2.alike.kind?_eq
  children {t u} h := by
    refine (List.forall₂_and_left _ _).mpr ⟨fun c hc => ?_, h.2.children⟩
    cases t with
    | leaf => cases hc
    | node k cs => exact h.1.child hc
  hasToken_eq h _ := h.2.alike.hasToken_eq _

lemma clauseParts?_eq (hroot : parse source = some root) (h : Corresponds p w t u)
    (ht : t.is .useClause = true) : Imports.clauseParts? u = Imports.clauseParts? t := by
  have hunits : ∀ a ∈ t.nodes, a.isUnit = true := by
    cases t with
    | leaf => cases ht
    | node k cs =>
      obtain rfl : k = .useClause := by simpa [is, kind?] using ht
      have hshape : NameShape .useClause cs := h.1 _ _ (mem_preorder_self _)
      intro a ha
      obtain ⟨ha, hnode⟩ := List.mem_filter.mp ha
      exact (hshape a ha hnode).elim (Respaced.isUnit_of_is · (by decide))
        (Respaced.isUnit_of_is · (by decide))
  have hnames : List.Forall₂ (fun t u => u.nameText = t.nameText) t.nodes u.nodes :=
    ((List.forall₂_and_left _ _).mpr ⟨hunits, h.2.nodes⟩).imp fun _ _ hab =>
      Respaced.nameText_eq_of_text (hab.2.text_eq_of_isUnit hroot hab.1)
  rw [Imports.clauseParts?, Imports.clauseParts?]
  generalize t.nodes = ts at hnames ⊢
  generalize u.nodes = us at hnames ⊢
  cases hnames with
  | nil => rfl
  | cons hname hmore =>
    dsimp only
    rw [hname, map_related (getLast?_related hmore) fun _ _ hab => hab.symm]

lemma agreement (hroot : parse source = some root) (hw : Filler w) :
    Agreement (Corresponds p w) where
  toSameForm := sameForm
  text_eq h ht := h.2.text_eq_of_isUnit hroot (Respaced.isUnit_of_is ht (by decide))
  nameText_eq h ht := Respaced.nameText_eq_of_text
    (h.2.text_eq_of_isUnit hroot (Respaced.isUnit_of_is ht (by decide)))
  propertyName_eq h := h.2.propertyName_eq
  value?_eq h := h.2.value?_eq hroot
  classReference?_eq h := h.2.classReference?_eq hroot hw
  clauseParts?_eq h := h.clauseParts?_eq hroot

end Corresponds

/-- A text may be inserted at a place. -/
structure Place.Allows (p : Place source) (root : Tree) (w : List Char) : Prop where
  parts : p.Parts w
  around : ∀ y ∈ root.around p.before.length, y.2.Allows w y.1

end EloquentEntity.Syntax

import EloquentEntity.Proofs.Imports.Declaration
import EloquentEntity.Proofs.Syntax.SameCode

/-!
Imports of functions and constants, which name no class.

A declaration with the word `function` or `const` after `use` is put into a source. In a group the
word stands for all members, so that nothing is imported. In a row it belongs to the first clause
alone: the further clauses import classes, unless they have such a word of their own.
-/

namespace EloquentEntity.Syntax.Tree

/-! ### One tree put into another -/

/-- The tree that has been put into the first tree to make the second, at the place that the path
tells. All else is the same code. -/
def inserted? : List Nat → Tree → Tree → Option Tree
  | [i], node k ts, node j us => if k == j && sameAll ts (us.eraseIdx i) then us[i]? else none
  | i :: path, node k ts, node j us =>
    if k == j && sameAll (ts.eraseIdx i) (us.eraseIdx i) then do
      inserted? path (← ts[i]?) (← us[i]?)
    else none
  | _, _, _ => none

end EloquentEntity.Syntax.Tree

namespace EloquentEntity.Imports

open Syntax Syntax.Tree

variable {c d t u root root' : Tree} {ts us : List Tree} {k : Kind} {path : List Nat}

/-! ### Declarations with the word -/

def furtherEntries (d : Tree) : List (String × String) :=
  (((d.childrenOf .useClause).tail.filter (!isNoClass ·)).filterMap clauseParts?).map plainEntry

/-- A declaration with the word imports what the clauses after the first do. -/
lemma IsDeclaration.entries_eq (h : IsDeclaration d) (hkey : hasKeyword d = true) :
    declarationEntries d = furtherEntries d := by
  obtain ⟨use, us, term, rfl, huse, hus, hterm⟩ := h.parts
  have hclauses : childrenOf .useClause (.node .useDeclaration (.leaf use :: (us ++ term))) =
      us.filter (·.is .useClause) := childrenOf_declaration hterm us .useClause
  obtain hgroup | hrow := hus
  · have hno := (hgroup.isNoClass_eq hterm huse).trans hkey
    obtain ⟨names, group, -, -, hfilter, -⟩ := hgroup.exists_group
    rw [declarationEntries, if_pos hno, furtherEntries, hclauses, hfilter]
    rfl
  · obtain ⟨first, more, hfilter, hgroup, hall, hhead, hne⟩ := hrow.exists_clauses
    have hfirst : isNoClass first = true := by
      rw [(hall first (by simp)).isNoClass_eq, ← hhead, ← hasKeyword_declaration .useDeclaration]
      · exact hkey
      · exact hne
    have hnogroup : (node .useDeclaration (.leaf use :: (us ++ term))).child? .useGroup = none := by
      rw [child?_eq_head?, childrenOf_declaration hterm, hgroup]
      rfl
    rw [declarationEntries, if_neg (by simp [hrow.isNoClass_eq hterm huse]), hnogroup]
    dsimp only
    rw [classClauses, furtherEntries, hclauses, hfilter, List.tail_cons,
      List.filter_cons_of_neg (by simp [hfirst])]

/-! ### The entries of a source -/

def entriesIn (t : Tree) : List (String × String) :=
  (t.preorder.filter (·.is .useDeclaration)).flatMap declarationEntries

/-- No declaration stands inside another. -/
def Unnested (t : Tree) : Prop :=
  ∀ u ∈ t.preorder, u.is .useDeclaration = true → ∀ v ∈ u.children, Free [.useDeclaration] v

lemma unnested_of_parse {source : String} (h : parse source = some root) : Unnested root := by
  intro u hu hk
  obtain ⟨n, ts, cs, rest, rfl, hread⟩ := exists_reads_of_declaration h hu hk
  exact (derives_of_run hread).free (by decide)

lemma entries_eq_entriesIn (root : Tree) : entries root = entriesIn root := by
  rw [entries, findAll, walk_eq, entriesIn]

lemma entriesIn_node (h : k ≠ .useDeclaration) (ts : List Tree) :
    entriesIn (node k ts) = ts.flatMap entriesIn := by
  have hk : (node k ts).is .useDeclaration = false := by simpa [Tree.is, kind?] using h
  rw [entriesIn, preorder, List.filter_cons_of_neg (by simp [hk]), preorderAll_eq_flatMap,
    List.filter_flatMap, List.flatMap_assoc]
  rfl

lemma entriesIn_eq (h : Same t u) : entriesIn t = entriesIn u :=
  flatMap_related (filter_related h.preorder fun _ _ hab => (hab.is_eq _).symm)
    fun _ _ => declarationEntries_eq

lemma entriesIn_declaration (hd : d.is .useDeclaration = true)
    (h : ∀ v ∈ d.children, Free [.useDeclaration] v) : entriesIn d = declarationEntries d := by
  have hnone : (preorderAll d.children).filter (·.is .useDeclaration) = [] := by
    rw [List.filter_eq_nil_iff]
    intro u hu
    obtain ⟨v, hv, hu⟩ := mem_preorderAll_iff.mp hu
    simp [(h v hv).is_eq_false (List.mem_singleton_self _) hu]
  rw [entriesIn, preorder_eq, List.filter_cons_of_pos hd, hnone]
  simp

/-! ### Entries around a tree that is put in -/

lemma eq_take_cons_drop {α : Type} {l : List α} {i : Nat} {a : α} (h : l[i]? = some a) :
    l = l.take i ++ a :: l.drop (i + 1) := by
  obtain ⟨hi, rfl⟩ := List.getElem?_eq_some_iff.mp h
  simp

lemma take_drop_eraseIdx {α : Type} {l : List α} {i : Nat} {a : α} (h : l[i]? = some a) :
    (l.eraseIdx i).take i = l.take i ∧ (l.eraseIdx i).drop i = l.drop (i + 1) := by
  obtain ⟨hi, -⟩ := List.getElem?_eq_some_iff.mp h
  have hlength : (l.take i).length = i := by simp; omega
  rw [List.eraseIdx_eq_take_drop_succ]
  exact ⟨List.take_left' hlength, List.drop_left' hlength⟩

lemma entriesIn_around {i : Nat} (hk : k ≠ .useDeclaration)
    (h : sameAll (ts.eraseIdx i) (us.eraseIdx i) = true) (ht : ts[i]? = some t)
    (hu : us[i]? = some u) :
    ∃ front back, entriesIn (node k ts) = front ++ entriesIn t ++ back ∧
      entriesIn (node k us) = front ++ entriesIn u ++ back := by
  have hsame := sameAll_iff.mp h
  have hfront := flatMap_related (List.forall₂_take i hsame) fun _ _ => entriesIn_eq
  have hback := flatMap_related (List.forall₂_drop i hsame) fun _ _ => entriesIn_eq
  rw [(take_drop_eraseIdx ht).1, (take_drop_eraseIdx hu).1] at hfront
  rw [(take_drop_eraseIdx ht).2, (take_drop_eraseIdx hu).2] at hback
  rw [entriesIn_node hk, entriesIn_node hk]
  refine ⟨(us.take i).flatMap entriesIn, (us.drop (i + 1)).flatMap entriesIn, ?_, ?_⟩
  · conv_lhs => rw [eq_take_cons_drop ht]
    rw [List.flatMap_append, List.flatMap_cons, hfront, hback, ← List.append_assoc]
  · conv_lhs => rw [eq_take_cons_drop hu]
    rw [List.flatMap_append, List.flatMap_cons, ← List.append_assoc]

lemma mem_of_inserted? (h : inserted? path t u = some d) : d ∈ preorderAll u.children := by
  fun_induction inserted? path t u with
  | case1 i k ts j us =>
    exact mem_preorderAll_iff.mpr ⟨d, List.mem_of_getElem? h, mem_preorder_self d⟩
  | case3 i path k ts j us _ hsame ih =>
    obtain ⟨t, ht, h⟩ := Option.bind_eq_some_iff.mp h
    obtain ⟨u, hu, h⟩ := Option.bind_eq_some_iff.mp h
    exact mem_preorderAll_below (List.mem_of_getElem? hu) (ih t u h)
  | case2 | case4 | case5 => cases h

lemma ne_of_mem (hu : Unnested (node k us)) (hd : d.is .useDeclaration = true)
    (hm : d ∈ preorderAll us) : k ≠ .useDeclaration := by
  rintro rfl
  obtain ⟨v, hv, hm⟩ := mem_preorderAll_iff.mp hm
  have hfree := hu _ (mem_preorder_self _) rfl v hv
  simp [hfree.is_eq_false (List.mem_singleton_self _) hm] at hd

lemma Unnested.child (hu : Unnested (node k us)) (hm : u ∈ us) : Unnested u :=
  fun v hv => hu v (preorder_trans (mem_preorder_of_child (t := node k us) hm) hv)

/-- **A declaration that is put into a source puts its entries among the others.** -/
lemma entriesIn_of_inserted? (h : inserted? path t u = some d) (hu : Unnested u)
    (hd : d.is .useDeclaration = true) :
    ∃ front back, entriesIn t = front ++ back ∧ entriesIn u = front ++ entriesIn d ++ back := by
  have hm := mem_of_inserted? h
  fun_induction inserted? path t u with
  | case1 i k ts j us hsame =>
    rw [Bool.and_eq_true, beq_iff_eq, sameAll_iff] at hsame
    obtain ⟨rfl, hsame⟩ := hsame
    have hk := ne_of_mem hu hd hm
    have hts := flatMap_related hsame fun _ _ => entriesIn_eq
    rw [List.eraseIdx_eq_take_drop_succ, List.flatMap_append] at hts
    refine ⟨(us.take i).flatMap entriesIn, (us.drop (i + 1)).flatMap entriesIn, ?_, ?_⟩
    · rw [entriesIn_node hk, hts]
    · rw [entriesIn_node hk]
      conv_lhs => rw [eq_take_cons_drop h]
      rw [List.flatMap_append, List.flatMap_cons, List.append_assoc]
  | case3 i path k ts j us _ hsame ih =>
    rw [Bool.and_eq_true, beq_iff_eq] at hsame
    obtain ⟨rfl, hsame⟩ := hsame
    obtain ⟨t, ht, h⟩ := Option.bind_eq_some_iff.mp h
    obtain ⟨u, hu', h⟩ := Option.bind_eq_some_iff.mp h
    have hk := ne_of_mem hu hd hm
    obtain ⟨front, back, hfront, hback⟩ := ih t u h (hu.child (List.mem_of_getElem? hu'))
      (mem_of_inserted? h)
    obtain ⟨before, after, hbefore, hafter⟩ := entriesIn_around hk hsame ht hu'
    refine ⟨before ++ front, back ++ after, ?_, ?_⟩
    · simp only [hbefore, hfront, List.append_assoc]
    · simp only [hafter, hback, List.append_assoc]
  | case2 | case4 | case5 => cases h

/-- **Imports of functions and constants name no class.** A declaration with the word `function` or
`const` adds to the imports of a source no more than its clauses after the first, and nothing where
each of these has such a word of its own: where there is one clause, or a group. -/
theorem collect_of_keyword {source : String} (hparse : parse source = some root')
    (h : inserted? path root root' = some d) (hd : d.is .useDeclaration = true)
    (hkey : hasKeyword d = true) :
    (∃ front back, entries root = front ++ back ∧
      entries root' = front ++ furtherEntries d ++ back) ∧
    ((∀ c ∈ (d.childrenOf .useClause).tail, isNoClass c = true) →
      collect root' = collect root) := by
  have hunnested := unnested_of_parse hparse
  have hm : d ∈ root'.preorder := mem_preorder_of_preorderAll (mem_of_inserted? h)
  have hentries : entriesIn d = furtherEntries d := by
    rw [entriesIn_declaration hd (hunnested d hm hd)]
    exact (isDeclaration_of_parse hparse hm hd).entries_eq hkey
  obtain ⟨front, back, hfront, hback⟩ := entriesIn_of_inserted? h hunnested hd
  rw [← entries_eq_entriesIn] at hfront
  rw [← entries_eq_entriesIn, hentries] at hback
  refine ⟨⟨front, back, hfront, hback⟩, fun hall => ?_⟩
  have hnone : furtherEntries d = [] := by
    rw [furtherEntries, List.filter_eq_nil_iff.mpr fun c hc => by simp [hall c hc]]
    rfl
  rw [collect, collect, hback, hfront, hnone, List.append_nil]

/-- A group of functions after a class import. -/
theorem collect_of_keyword_group :
    ∃ root ∈ parse "<?php use A\\B; class C \x7b\x7d",
      ∃ root' ∈ parse "<?php use A\\B; use FUNCTION f\\\x7bB, g as C\x7d; class C \x7b\x7d",
      ∃ d ∈ inserted? [1] root root', d.is .useDeclaration = true ∧ hasKeyword d = true ∧
        OrderedMap.entries (collect root) = [("B", "A\\B")] ∧ collect root' = collect root := by
  have hfacts : ∃ root ∈ parse "<?php use A\\B; class C \x7b\x7d",
      ∃ root' ∈ parse "<?php use A\\B; use FUNCTION f\\\x7bB, g as C\x7d; class C \x7b\x7d",
      ∃ d ∈ inserted? [1] root root', d.is .useDeclaration = true ∧ hasKeyword d = true ∧
        (∀ c ∈ (d.childrenOf .useClause).tail, isNoClass c = true) ∧
        OrderedMap.entries (collect root) = [("B", "A\\B")] := by
    decide +kernel
  obtain ⟨root, hroot, root', hparse, d, h, hd, hkey, hall, hentries⟩ := hfacts
  exact ⟨root, hroot, root', hparse, d, h, hd, hkey, hentries,
    (collect_of_keyword hparse h hd hkey).2 hall⟩

/-- The second function of a list is taken for a class. -/
theorem collect_of_keyword_list :
    ∃ root ∈ parse "<?php ", ∃ root' ∈ parse "<?php use function a\\b, c\\d;",
      ∃ d ∈ inserted? [0] root root', d.is .useDeclaration = true ∧ hasKeyword d = true ∧
        OrderedMap.entries (collect root) = [] ∧ OrderedMap.entries (collect root') = [("d", "c\\d")] := by
  decide +kernel

end EloquentEntity.Imports

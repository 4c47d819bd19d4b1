import EloquentEntity.Proofs.Imports.NoClass
import EloquentEntity.Proofs.Imports.Entries
import EloquentEntity.Proofs.ClassName

/-!
Imports of several classes in one declaration, and the same imports one by one.

In the place of one declaration stand others: one for each clause of a row, or one with the full
name for each class in a group. They import the same under the same short names.
-/

namespace EloquentEntity

namespace ClassName

variable {space name : String}

/-- A name behind another one loses the backslashes in front of the whole. -/
lemma bare_append (h : IsBare name) : bare (space ++ "\\" ++ name) =
    if bare space = "" then name else bare space ++ "\\" ++ name := by
  obtain ⟨c, s, hname⟩ := List.exists_cons_of_ne_nil (l := name.toList) (by simpa using h.1)
  have hc : c ≠ '\\' := fun hc => h.2 (by rw [hname, hc]; rfl)
  have htext : (space ++ "\\" ++ name).toList = space.toList ++ '\\' :: c :: s := by simp [hname]
  have hback : ('\\' :: c :: s).dropWhile (· == '\\') = c :: s := by simp [hc]
  have hempty : bare space = "" ↔ (space.toList.dropWhile (· == '\\')).isEmpty = true := by
    rw [List.isEmpty_iff, bare]
    exact ⟨fun h => by simpa using congrArg String.toList h, fun h => by rw [h]⟩
  apply String.toList_inj.mp
  rw [bare, String.toList_ofList, htext, List.dropWhile_append, hback]
  split
  · next hall => rw [if_pos (hempty.mpr hall), hname]
  · next hsome =>
    rw [if_neg (hempty.not.mpr hsome), bare, String.toList_append, String.toList_append,
      String.toList_ofList, hname, List.append_assoc]
    rfl

end ClassName

namespace Syntax.Tree

/-- The tree that stands in the first, at the place that the path tells, where the others stand in
the second. All else is the same code. -/
def replaced? : List Nat → Tree → Tree → Option (Tree × List Tree)
  | [i], node k ts, node j us =>
    let n := us.length + 1 - ts.length
    if k == j && sameAll (ts.take i) (us.take i) && sameAll (ts.drop (i + 1)) (us.drop (i + n)) then
      ts[i]?.map (·, (us.drop i).take n)
    else none
  | i :: path, node k ts, node j us =>
    if k == j && sameAll (ts.eraseIdx i) (us.eraseIdx i) then do
      replaced? path (← ts[i]?) (← us[i]?)
    else none
  | _, _, _ => none

end Syntax.Tree

namespace Imports

open Syntax Syntax.Tree

variable {c c' d e space t u root root' : Tree} {ds ts us : List Tree} {k : Kind} {path : List Nat}
  {source source' : String}

/-! ### The entries around what is replaced -/

lemma mem_of_replaced? (h : replaced? path t u = some (d, ds)) :
    d ∈ preorderAll t.children ∧ ∀ e ∈ ds, e ∈ preorderAll u.children := by
  fun_induction replaced? path t u with
  | case1 i k ts j us n hsame =>
    obtain ⟨d', hd, heq⟩ := Option.map_eq_some_iff.mp h
    obtain ⟨rfl, rfl⟩ := Prod.mk.inj heq
    exact ⟨mem_preorderAll_iff.mpr ⟨_, List.mem_of_getElem? hd, mem_preorder_self _⟩, fun e he =>
      mem_preorderAll_iff.mpr ⟨e, List.mem_of_mem_drop (List.mem_of_mem_take he),
        mem_preorder_self e⟩⟩
  | case3 i path k ts j us _ hsame ih =>
    obtain ⟨t, ht, h⟩ := Option.bind_eq_some_iff.mp h
    obtain ⟨u, hu, h⟩ := Option.bind_eq_some_iff.mp h
    obtain ⟨hd, hds⟩ := ih t u h
    exact ⟨mem_preorderAll_below (List.mem_of_getElem? ht) hd,
      fun e he => mem_preorderAll_below (List.mem_of_getElem? hu) (hds e he)⟩
  | case2 | case4 | case5 => cases h

/-- The entries before and after a declaration are those before and after the ones in its place. -/
lemma entriesIn_of_replaced? (h : replaced? path t u = some (d, ds)) (ht : Unnested t)
    (hd : d.is .useDeclaration = true) :
    ∃ front back, entriesIn t = front ++ entriesIn d ++ back ∧
      entriesIn u = front ++ ds.flatMap entriesIn ++ back := by
  have hm := (mem_of_replaced? h).1
  fun_induction replaced? path t u with
  | case1 i k ts j us n hsame =>
    -- The declaration is a child here.
    simp only [Bool.and_eq_true, beq_iff_eq, sameAll_iff] at hsame
    obtain ⟨⟨rfl, hfront⟩, hback⟩ := hsame
    obtain ⟨d', hi, heq⟩ := Option.map_eq_some_iff.mp h
    obtain ⟨rfl, rfl⟩ := Prod.mk.inj heq
    have hk := ne_of_mem ht hd hm
    have hus : us = us.take i ++ (us.drop i).take n ++ us.drop (i + n) := by
      rw [List.append_assoc, ← List.drop_drop, List.take_append_drop, List.take_append_drop]
    refine ⟨(us.take i).flatMap entriesIn, (us.drop (i + n)).flatMap entriesIn, ?_, ?_⟩
    · rw [entriesIn_node hk, ← flatMap_related hfront fun _ _ => entriesIn_eq,
        ← flatMap_related hback fun _ _ => entriesIn_eq]
      conv_lhs => rw [eq_take_cons_drop hi]
      rw [List.flatMap_append, List.flatMap_cons, List.append_assoc]
    · rw [entriesIn_node hk]
      conv_lhs => rw [hus]
      rw [List.flatMap_append, List.flatMap_append]
  | case3 i path k ts j us _ hsame ih =>
    -- It stands further down, in a child.
    rw [Bool.and_eq_true, beq_iff_eq] at hsame
    obtain ⟨rfl, hsame⟩ := hsame
    obtain ⟨t, hi, h⟩ := Option.bind_eq_some_iff.mp h
    obtain ⟨u, hi', h⟩ := Option.bind_eq_some_iff.mp h
    have hk := ne_of_mem ht hd hm
    obtain ⟨front, back, hfront, hback⟩ :=
      ih t u h (ht.child (List.mem_of_getElem? hi)) (mem_of_replaced? h).1
    obtain ⟨before, after, hbefore, hafter⟩ := entriesIn_around hk hsame hi hi'
    refine ⟨before ++ front, back ++ after, ?_, ?_⟩
    · simp only [hbefore, hfront, List.append_assoc]
    · simp only [hafter, hback, List.append_assoc]
  | case2 | case4 | case5 => cases h

/-! ### One by one -/

def onlyClause? (e : Tree) : Option Tree :=
  match e.child? .useGroup, e.childrenOf .useClause with
  | none, [c] => some c
  | _, _ => none

/-- The declaration `e` is for the clause `c` alone. -/
def IsAlone (c e : Tree) : Prop :=
  e.is .useDeclaration = true ∧ ∃ c' ∈ onlyClause? e, c.same c' = true

instance (c e : Tree) : Decidable (IsAlone c e) :=
  inferInstanceAs (Decidable (_ ∧ ∃ c' ∈ onlyClause? e, _))

/-- A name is spelled with the name of a namespace in front, which may start with a backslash. -/
def IsBehind (space member full : Tree) : Prop :=
  full.nameText = space.nameText ++ "\\" ++ member.nameText ∨
    full.nameText = "\\" ++ space.nameText ++ "\\" ++ member.nameText

instance (space member full : Tree) : Decidable (IsBehind space member full) :=
  inferInstanceAs (Decidable (_ ∨ _))

/-- The declaration `e` is for the class alone that the clause `c` of a group names by its last
segment. -/
def IsSpelledOut (space c e : Tree) : Prop :=
  e.is .useDeclaration = true ∧ ∃ c' ∈ onlyClause? e, isNoClass c' = false ∧
    sameAll c.nodes.tail c'.nodes.tail = true ∧
    ∃ member ∈ c.nodes.head?, ∃ full ∈ c'.nodes.head?,
      '\\' ∉ member.nameText.toList ∧ IsBehind space member full

instance (space c e : Tree) : Decidable (IsSpelledOut space c e) :=
  inferInstanceAs (Decidable (_ ∧ ∃ c' ∈ onlyClause? e, _ ∧ _ ∧
    ∃ member ∈ c.nodes.head?, ∃ full ∈ c'.nodes.head?, _))

/-- The classes that a declaration imports are imported one by one. -/
inductive Separated (d : Tree) (ds : List Tree) : Prop
  | row : d.child? .useGroup = none → List.Forall₂ IsAlone (d.childrenOf .useClause) ds →
      Separated d ds
  | group {g space} : d.child? .useGroup = some g → isNoClass d = false →
      d.child? .namespaceName = some space →
      List.Forall₂ (IsSpelledOut space) ((g.childrenOf .useClause).filter (!isNoClass ·)) ds →
      Separated d ds

/-- No class in a group has a name of white space alone. -/
def HasNames (d : Tree) : Prop :=
  ∀ g ∈ d.child? .useGroup, ∀ c ∈ g.childrenOf .useClause, isNoClass c = false →
    ∀ member ∈ c.nodes.head?, member.nameText ≠ ""

instance (d : Tree) : Decidable (HasNames d) :=
  inferInstanceAs (Decidable (∀ g ∈ d.child? .useGroup, ∀ c ∈ g.childrenOf .useClause,
    isNoClass c = false → ∀ member ∈ c.nodes.head?, _))

lemma onlyClause?_eq_some_iff : onlyClause? e = some c ↔
    e.child? .useGroup = none ∧ e.childrenOf .useClause = [c] := by
  rw [onlyClause?]
  split
  · next hgroup hclauses => simp [hgroup, hclauses]
  · next hno =>
    refine iff_of_false nofun ?_
    rintro ⟨hgroup, hclauses⟩
    exact hno c hgroup hclauses

/-- The word `function` or `const` belongs to a clause, unless there is a group. -/
lemma IsDeclaration.isNoClass_of_row (h : IsDeclaration d) (hrow : d.child? .useGroup = none) :
    isNoClass d = false := by
  obtain ⟨use, us, term, rfl, huse, hgrouped | hus, hterm⟩ := h.parts
  · obtain ⟨names, g, -, hfilter, -⟩ := hgrouped.exists_group
    rw [child?_eq_head?, childrenOf_declaration hterm, hfilter] at hrow
    cases hrow
  · exact hus.isNoClass_eq hterm huse

lemma IsDeclaration.clauseImport?_of_row (h : IsDeclaration d) (hrow : d.child? .useGroup = none)
    (c : Tree) : clauseImport? d c =
      if isNoClass c then none else (clauseParts? c).map plainEntry := by
  rw [clauseImport?, h.isNoClass_of_row hrow, Bool.false_or, hrow]
  rfl

lemma IsDeclaration.declarationEntries_of_onlyClause (h : IsDeclaration e)
    (hc : onlyClause? e = some c) : declarationEntries e =
      (if isNoClass c then none else (clauseParts? c).map plainEntry).toList := by
  obtain ⟨hrow, hclauses⟩ := onlyClause?_eq_some_iff.mp hc
  have hall : clauses e = [c] := by rw [clauses, hrow, Option.getD_none, hclauses]
  rw [declarationEntries_eq_filterMap, hall, List.filterMap_eq_flatMap_toList,
    List.flatMap_singleton, h.clauseImport?_of_row hrow]

lemma flatMap_declarationEntries {R : Tree → Tree → Prop} {cs : List Tree}
    {f : Tree → Option (String × String)} (h : List.Forall₂ R cs ds)
    (hf : ∀ c ∈ cs, ∀ e ∈ ds, R c e → declarationEntries e = (f c).toList) :
    ds.flatMap declarationEntries = cs.filterMap f := by
  induction h with
  | nil => rfl
  | @cons c e cs ds hce _ ih =>
    rw [List.flatMap_cons, hf c (by simp) e (by simp) hce,
      ih fun c hc e he => hf c (List.mem_cons_of_mem _ hc) e (List.mem_cons_of_mem _ he),
      List.filterMap_cons]
    cases f c <;> rfl

/-- A declaration for a clause of a row imports what the clause does. -/
lemma IsAlone.declarationEntries_eq (h : IsAlone c e) (he : IsDeclaration e)
    (hd : IsDeclaration d) (hrow : d.child? .useGroup = none) :
    declarationEntries e = (clauseImport? d c).toList := by
  obtain ⟨-, c', hc', hsame⟩ := h
  have hsame : Same c c' := hsame
  rw [he.declarationEntries_of_onlyClause hc', hd.clauseImport?_of_row hrow, isNoClass_eq hsame,
    clauseParts?_eq hsame]

/-- A declaration with the full name imports what the member of the group does. -/
lemma IsSpelledOut.declarationEntries_eq (h : IsSpelledOut space c e) (he : IsDeclaration e)
    (hname : ∀ member ∈ c.nodes.head?, member.nameText ≠ "") :
    declarationEntries e =
      ((clauseParts? c).map (groupEntry (ClassName.bare space.nameText))).toList := by
  obtain ⟨-, c', hc', hno, hmore, member, hmember, full, hfull, hsegment, hbehind⟩ := h
  obtain ⟨more, hnodes⟩ := List.head?_eq_some_iff.mp hmember
  obtain ⟨more', hnodes'⟩ := List.head?_eq_some_iff.mp hfull
  rw [hnodes, hnodes', List.tail_cons, List.tail_cons, sameAll_iff] at hmore
  have hbare : ClassName.IsBare member.nameText :=
    ⟨hname member hmember, fun hhead => hsegment (List.mem_of_mem_head? hhead)⟩
  have hshort : ClassName.short member.nameText = member.nameText := by
    have := ClassName.short_of_notMem hsegment
    rwa [String.ofList_toList] at this
  -- The full name is the name of the namespace, a backslash and the member.
  have hname' : ClassName.bare full.nameText =
      if ClassName.bare space.nameText = "" then member.nameText
      else ClassName.bare space.nameText ++ "\\" ++ member.nameText := by
    rw [← ClassName.bare_append hbare]
    obtain hfull | hfull := hbehind
    · rw [hfull]
    · have hback (s : String) : ClassName.bare ("\\" ++ s) = ClassName.bare s := by
        have := ClassName.bare_backslash s.toList
        rwa [String.ofList_cons, String.ofList_toList] at this
      rw [hfull, String.append_assoc, String.append_assoc, hback, ← String.append_assoc]
  have hnewName : (more'.getLast?.map nameText).filter (· ≠ "") =
      (more.getLast?.map nameText).filter (· ≠ "") := by
    rw [map_related (getLast?_related hmore) fun _ _ hab => hab.nameText_eq.symm]
  rw [he.declarationEntries_of_onlyClause hc', hno, if_neg (by simp), clauseParts?, clauseParts?,
    hnodes, hnodes']
  dsimp only
  rw [hname', hbare.bare_eq, if_neg hbare.1, hnewName, Option.map_some, groupEntry]
  -- The namespace may have no name, of white space and backslashes alone.
  by_cases hspace : ClassName.bare space.nameText = ""
  · simp only [if_pos hspace, if_neg hbare.1, Option.map_some, plainEntry, hshort]
  · have hlast : ClassName.short (ClassName.bare space.nameText ++ "\\" ++ member.nameText) =
        member.nameText := by
      have := ClassName.short_append hsegment (ClassName.bare space.nameText).toList
      rwa [String.ofList_append, String.ofList_cons, String.ofList_toList, String.ofList_toList,
        ← String.append_assoc] at this
    have hne : ClassName.bare space.nameText ++ "\\" ++ member.nameText ≠ "" := by
      simp [hspace]
    simp only [if_neg hspace, if_neg hne, Option.map_some, plainEntry, hshort, hlast]

lemma Separated.flatMap_eq (h : Separated d ds) (hd : IsDeclaration d)
    (hds : ∀ e ∈ ds, IsDeclaration e) (hnames : HasNames d) :
    ds.flatMap declarationEntries = declarationEntries d := by
  cases h with
  | row hrow hclauses =>
    rw [flatMap_declarationEntries hclauses fun c _ e he h =>
      h.declarationEntries_eq (hds e he) hd hrow, declarationEntries_eq_filterMap, clauses, hrow]
    rfl
  | @group g space hgroup hno hspace hmembers =>
    have hmember (c : Tree) (hc : c ∈ (g.childrenOf .useClause).filter (!isNoClass ·)) :
        ∀ member ∈ c.nodes.head?, member.nameText ≠ "" :=
      hnames g hgroup c (List.mem_of_mem_filter hc) (by simpa using List.of_mem_filter hc)
    rw [flatMap_declarationEntries hmembers fun c hc e he h =>
      h.declarationEntries_eq (hds e he) (hmember c hc), declarationEntries, hno,
      if_neg (by simp), hgroup, hspace]
    dsimp only
    rw [classClauses, List.map_filterMap]
    rfl

lemma Separated.is_useDeclaration (h : Separated d ds) :
    ∀ e ∈ ds, e.is .useDeclaration = true := by
  have hall {R : Tree → Tree → Prop} {cs es : List Tree} (h : List.Forall₂ R cs es)
      (hR : ∀ c e, R c e → e.is .useDeclaration = true) : ∀ e ∈ es, e.is .useDeclaration = true := by
    induction h with
    | nil => simp
    | cons hce _ ih => exact List.forall_mem_cons.mpr ⟨hR _ _ hce, ih⟩
  cases h with
  | row _ hclauses => exact hall hclauses fun _ _ h => h.1
  | group _ _ _ hmembers => exact hall hmembers fun _ _ h => h.1

/-- **Several imports at once are the same as one by one,** in a row and in a group, whatever other
imports stand around them. -/
theorem collect_of_separated (hparse : parse source = some root)
    (hparse' : parse source' = some root') (h : replaced? path root root' = some (d, ds))
    (hd : d.is .useDeclaration = true) (hs : Separated d ds) (hnames : HasNames d) :
    entries root' = entries root ∧ collect root' = collect root := by
  obtain ⟨hm, hms⟩ := mem_of_replaced? h
  have hdeclaration {source : String} {t u : Tree} (hparse : parse source = some t)
      (hu : u ∈ preorderAll t.children) (hk : u.is .useDeclaration = true) :
      IsDeclaration u ∧ entriesIn u = declarationEntries u :=
    have hu := mem_preorder_of_preorderAll hu
    ⟨isDeclaration_of_parse hparse hu hk,
      entriesIn_declaration hk (unnested_of_parse hparse u hu hk)⟩
  obtain ⟨hshape, hentries⟩ := hdeclaration hparse hm hd
  have hall : ∀ e ∈ ds, IsDeclaration e ∧ entriesIn e = declarationEntries e :=
    fun e he => hdeclaration hparse' (hms e he) (hs.is_useDeclaration e he)
  have hsame : ds.flatMap entriesIn = entriesIn d := by
    rw [hentries, ← hs.flatMap_eq hshape (fun e he => (hall e he).1) hnames]
    exact List.flatMap_congr fun e he => (hall e he).2
  obtain ⟨front, back, hfront, hback⟩ :=
    entriesIn_of_replaced? h (unnested_of_parse hparse) hd
  have heq : entries root' = entries root := by
    rw [entries_eq_entriesIn, entries_eq_entriesIn, hfront, hback, hsame]
  exact ⟨heq, by rw [collect, collect, heq]⟩

/-- A group with a member that is no class, between two imports of its short names. -/
theorem collect_of_separated_group :
    ∃ root ∈ parse "<?php use A\\Json; use \\App\\\x7bMoney, function f, Date as Json\x7d; use B\\Money;",
      ∃ root' ∈ parse "<?php use A\\Json; use \\App\\Money; use App\\Date as Json; use B\\Money;",
      ∃ d ds, replaced? [1] root root' = some (d, ds) ∧ d.is .useDeclaration = true ∧
        Separated d ds ∧ HasNames d ∧
        OrderedMap.entries (collect root') = [("Json", "App\\Date"), ("Money", "B\\Money")] ∧
        collect root' = collect root := by
  have hfacts :
      ∃ root ∈ parse "<?php use A\\Json; use \\App\\\x7bMoney, function f, Date as Json\x7d; use B\\Money;",
        ∃ root' ∈ parse "<?php use A\\Json; use \\App\\Money; use App\\Date as Json; use B\\Money;",
        ∃ x ∈ replaced? [1] root root', x.1.is .useDeclaration = true ∧ HasNames x.1 ∧
          (∃ g ∈ x.1.child? .useGroup, ∃ space ∈ x.1.child? .namespaceName, isNoClass x.1 = false ∧
            List.Forall₂ (IsSpelledOut space)
              ((g.childrenOf .useClause).filter (!isNoClass ·)) x.2) ∧
          OrderedMap.entries (collect root') = [("Json", "App\\Date"), ("Money", "B\\Money")] := by
    decide +kernel
  obtain ⟨root, hparse, root', hparse', ⟨d, ds⟩, h, hd, hnames, ⟨g, hgroup, space, hspace, hno,
    hmembers⟩, hentries⟩ := hfacts
  have hs : Separated d ds := .group hgroup hno hspace hmembers
  exact ⟨root, hparse, root', hparse', d, ds, h, hd, hs, hnames, hentries,
    (collect_of_separated hparse hparse' h hd hs hnames).2⟩

/-- A class whose name is an ideographic space is imported on its own and left out of a group. Where
a declaration is the only statement that may stand, the ones in its place may not. -/
theorem collect_of_blank_member :
    (∃ root ∈ parse "<?php use P\\\x7b\u3000\x7d;", ∃ root' ∈ parse "<?php use P\\\u3000;",
      ∃ x ∈ replaced? [0] root root', x.1.is .useDeclaration = true ∧
        (∃ g ∈ x.1.child? .useGroup, ∃ space ∈ x.1.child? .namespaceName, isNoClass x.1 = false ∧
          List.Forall₂ (IsSpelledOut space)
            ((g.childrenOf .useClause).filter (!isNoClass ·)) x.2) ∧
        OrderedMap.entries (collect root) = [] ∧
        OrderedMap.entries (collect root') = [("", "P\\")]) ∧
    (parse "<?php if (1) use A, B; else use C;").isSome = true ∧
      (parse "<?php if (1) use A; use B; else use C;").isSome = false := by
  decide +kernel

end Imports

end EloquentEntity

import EloquentEntity.Proofs.Casts.Resolver
import EloquentEntity.Proofs.Entity.Legible
import EloquentEntity.Proofs.Generate.Steps
import EloquentEntity.Proofs.Syntax.Names

/-!
The types of columns: built-in ones, and class names after exactly one backslash.

A type comes from a table, from an import or from a name that is written out. What makes the last
two class names is that every name in a source ends in a word.
-/

namespace EloquentEntity

open Syntax ClassName

/-- A built-in type, or a class name after one backslash. -/
def IsTypeName (type : String) : Prop :=
  type ∈ builtInTypes ∨ ∃ name, IsBare name ∧ type = "\\" ++ name

/-- No identifier in a source has white space of any script in it. -/
def PlainWords (source : String) : Prop :=
  ∀ t ∈ tokens source, t.kind = .word → ∀ c ∈ t.text, Text.isBlank c = false

instance (source : String) : Decidable (PlainWords source) :=
  decidable_of_iff
    ((tokens source).all (fun t => t.kind != .word || !t.text.any Text.isBlank) = true)
    (by simp [PlainWords, List.all_eq_true, or_iff_not_imp_left])

/-! ### Names that are written -/

namespace Syntax.Tree

lemma joinTokens_concat (ts : List Token) (t : Token) :
    ∃ front, joinTokens (ts ++ [t]) = front ++ t.text := by
  cases ts with
  | nil => exact ⟨[], by simp [joinTokens]⟩
  | cons u ts =>
    exact ⟨u.text ++ (ts.flatMap Token.written ++ t.gap), by simp [joinTokens, Token.written]⟩

def EndsPlain (t : Tree) : Prop := ∃ front c, t.nameText = String.ofList (front ++ [c]) ∧ c ≠ '\\'

lemma EndsPlain.isBare_bare {t : Tree} (h : t.EndsPlain) : IsBare (bare t.nameText) := by
  obtain ⟨front, c, ht, hc⟩ := h
  exact ClassName.isBare_bare (c := c) (by rw [ht]; simp) hc

lemma EndsPlain.exists_bare_eq {t : Tree} (h : t.EndsPlain) :
    ∃ front c, bare t.nameText = String.ofList (front ++ [c]) ∧ c ≠ '\\' := by
  obtain ⟨front, c, ht, hc⟩ := h
  refine ⟨front.dropWhile (· == '\\'), c, ?_, hc⟩
  have hstop : [c].dropWhile (· == '\\') = [c] := by simp [hc]
  rw [bare, ht, String.toList_ofList, List.dropWhile_append, hstop]
  split
  · next hempty => rw [List.isEmpty_iff.mp hempty, List.nil_append]
  · rfl

lemma EndsPlain.short_bare_ne {t : Tree} (h : t.EndsPlain) : short (bare t.nameText) ≠ "" := by
  obtain ⟨front, c, hbare, hc⟩ := h.exists_bare_eq
  rw [hbare]
  exact short_ne hc

end Syntax.Tree

variable {source : String} {root u : Tree}

lemma endsPlain_of_mem (h : parse source = some root) (hw : PlainWords source)
    (hu : u ∈ root.preorder) (hname : IsNameNode u) : u.EndsPlain := by
  have hends : ∃ k cs, u = .node k cs ∧ EndsInWord cs := by
    cases u with
    | leaf t => simp [IsNameNode, Tree.is, Tree.kind?] at hname
    | node k cs =>
      have hshape := shaped_of_parse h k cs hu
      refine ⟨k, cs, rfl, ?_⟩
      rcases hname with hk | hk
      · obtain rfl : k = .name := by simpa [Tree.is, Tree.kind?] using hk
        exact hshape
      · obtain rfl : k = .qualifiedName := by simpa [Tree.is, Tree.kind?] using hk
        exact hshape
  obtain ⟨k, cs, rfl, init, t, rfl, hk⟩ := hends
  have htokens : (Syntax.Tree.node k (init ++ [.leaf t])).tokens =
      Tree.tokensAll init ++ [t] := by
    rw [Tree.tokens, tokensAll_append]
    rfl
  have ht : t ∈ root.tokens := Tree.mem_tokens_of_preorder hu (by rw [htokens]; simp)
  obtain ⟨hne, hpart⟩ := word_of_parse h ht hk
  have hblank := hw t (tokens_of_parse h ▸ ht) hk
  obtain ⟨front, hfront⟩ := Tree.joinTokens_concat (Tree.tokensAll init) t
  obtain ⟨w, c, hwc⟩ : ∃ w c, t.text = w ++ [c] := ⟨_, _, (List.dropLast_append_getLast hne).symm⟩
  refine ⟨Text.withoutBlanks (front ++ w), c, ?_, ?_⟩
  · have hc : Text.withoutBlanks [c] = [c] := by
      have := hblank c (by simp [hwc])
      simp [Text.withoutBlanks, this]
    rw [Tree.nameText, Tree.text, htokens, hfront, hwc, ← List.append_assoc, ← hc]
    simp only [Text.withoutBlanks, List.filter_append, List.filter_filter, Bool.and_self]
  · rintro rfl
    exact absurd (hpart '\\' (by simp [hwc])) (by decide)

/-! ### Imports -/

namespace Imports

variable {d clause : Tree} {parts : String × Option String} {e : String × String}

/-- A clause names a class whose bare name and last segment are not empty. -/
lemma isBare_of_clause (h : parse source = some root) (hw : PlainWords source)
    (hc : clause ∈ root.preorder) (hk : clause.is .useClause = true)
    (hp : clauseParts? clause = some parts) : IsBare parts.1 ∧ IsBare (short parts.1) := by
  obtain ⟨cs, rfl⟩ : ∃ cs, clause = .node .useClause cs := by
    cases clause with
    | leaf t => cases hk
    | node k cs => exact ⟨cs, by rw [show k = .useClause by simpa [Tree.is, Tree.kind?] using hk]⟩
  have hshape : ∀ u ∈ cs, u.kind?.isSome = true → IsNameNode u :=
    shaped_of_parse h .useClause cs hc
  rw [clauseParts?] at hp
  split at hp
  · cases hp
  · next name more hnodes =>
    have hname : name ∈ cs ∧ name.kind?.isSome = true :=
      List.mem_filter.mp (show name ∈ cs.filter (·.kind?.isSome) by
        rw [show cs.filter (·.kind?.isSome) = name :: more from hnodes]
        exact List.mem_cons_self ..)
    have hends : name.EndsPlain := endsPlain_of_mem h hw
      (Tree.mem_preorder_child hc hname.1) (hshape _ hname.1 hname.2)
    dsimp only at hp
    split at hp
    · cases hp
    · cases hp
      exact ⟨hends.isBare_bare, isBare_short hends.short_bare_ne⟩

lemma isBare_of_classClauses (h : parse source = some root) (hw : PlainWords source)
    (hd : d ∈ root.preorder) (hp : parts ∈ classClauses d) :
    IsBare parts.1 ∧ IsBare (short parts.1) := by
  obtain ⟨clause, hc, hp⟩ := List.mem_filterMap.mp hp
  obtain ⟨hc, hk⟩ := List.mem_filter.mp (List.mem_filter.mp hc).1
  exact isBare_of_clause h hw (Tree.mem_preorder_child hd hc) hk hp

lemma isBare_of_mem_entries (h : parse source = some root) (hw : PlainWords source)
    (he : e ∈ entries root) : IsBare e.2 := by
  obtain ⟨d, hd, he⟩ := List.mem_flatMap.mp he
  have hd : d ∈ root.preorder := by
    rw [Tree.findAll, Tree.walk_eq] at hd
    exact (List.mem_filter.mp hd).1
  rw [declarationEntries] at he
  split at he
  · cases he
  · split at he
    · next group hgroup =>
      obtain ⟨parts, hparts, rfl⟩ := List.mem_map.mp he
      have hg := Tree.mem_preorder_child hd (List.mem_of_find?_eq_some hgroup)
      obtain ⟨-, hshort⟩ := isBare_of_classClauses h hw hg hparts
      rw [groupEntry]
      dsimp only
      split
      · exact hshort
      · next hbase =>
        refine IsBare.append (IsBare.append ⟨hbase, ?_⟩ _) _
        cases d.child? .namespaceName with
        | none => simp
        | some n => exact head?_bare_ne n.nameText
    · obtain ⟨parts, hparts, rfl⟩ := List.mem_map.mp he
      exact (isBare_of_classClauses h hw hd hparts).1

lemma isBare_of_get?_collect (h : parse source = some root) (hw : PlainWords source)
    {name full : String} (hfull : (collect root).get? name = some full) : IsBare full :=
  isBare_of_mem_entries h hw (OrderedMap.mem_of_get?_ofList hfull)

end Imports

/-! ### Types -/

lemma isTypeName_qualify {name : String} (h : IsBare name) : IsTypeName (qualify name) :=
  .inr ⟨name, h, qualify_eq h⟩

namespace Casts

variable {t : Tree} {type name : String} {imports : Imports}

/-- What is looked up in a table, or taken in its place. -/
lemma isTypeName_lookup {table : List (String × String)} (h : ∀ e ∈ table, IsTypeName e.2)
    (key : String) : IsTypeName ((table.lookup key).getD stringType) := by
  rcases ht : table.lookup key with _ | type
  · exact .inl (by decide)
  · obtain ⟨front, back, rfl, -⟩ := List.lookup_eq_some_iff.mp ht
    exact h (key, type) (by simp)

lemma isTypeName_of_mem_keywordTypes : ∀ e ∈ keywordTypes, IsTypeName e.2 := by
  have hall : ∀ e ∈ keywordTypes, e.2 ∈ builtInTypes ∨
      ∃ name ∈ ["Illuminate\\Support\\Collection", "Illuminate\\Support\\Carbon"],
        IsBare name ∧ e.2 = "\\" ++ name := by decide
  intro e he
  exact (hall e he).imp id fun ⟨name, _, h⟩ => ⟨name, h⟩

lemma isTypeName_builtinType (name : String) : IsTypeName (builtinType name) :=
  isTypeName_lookup (fun e he => .inl ((by decide : ∀ e ∈ builtinTypes, e.2 ∈ builtInTypes) e he)) _

lemma isTypeName_keywordType (descriptor : Option String) :
    IsTypeName (keywordType descriptor) := by
  cases descriptor with
  | none => exact .inl (by decide)
  | some d =>
    rw [keywordType]
    exact isTypeName_lookup isTypeName_of_mem_keywordTypes _

lemma isTypeName_of_classOfName? (h : parse source = some root) (hw : PlainWords source)
    (hu : u ∈ root.preorder) (hname : IsNameNode u)
    (htype : classOfName? u.nameText (Imports.collect root) = some type) : IsTypeName type := by
  rw [classOfName?] at htype
  split at htype
  · next hhead =>
    obtain rfl := Option.some.inj htype
    obtain ⟨front, c, htext, hc⟩ := endsPlain_of_mem h hw hu hname
    exact .inr ⟨bare u.nameText, isBare_bare (c := c) (by rw [htext]; simp) hc, rfl⟩
  · obtain ⟨full, hfull, rfl⟩ := Option.map_eq_some_iff.mp htype
    exact isTypeName_qualify (Imports.isBare_of_get?_collect h hw hfull)

/-- The type that a declared type of one part stands for. -/
lemma isTypeName_of_simpleReturnType? (h : parse source = some root) (hw : PlainWords source)
    (ht : t ∈ root.preorder) (htype : simpleReturnType? t (Imports.collect root) = some type) :
    IsTypeName type := by
  rw [simpleReturnType?] at htype
  split at htype
  · obtain rfl := Option.some.inj htype
    exact isTypeName_builtinType _
  · split at htype
    · next name hname =>
      split at htype
      · next hplain =>
        have hm : name ∈ root.preorder :=
          Tree.mem_preorder_child ht (List.mem_filter.mp (List.mem_of_mem_head? hname)).1
        refine isTypeName_of_classOfName? h hw hm ?_ htype
        simpa [isPlainName, Tree.isOneOf, IsNameNode] using hplain
      · cases htype
    · cases htype
  · cases htype

lemma isTypeName_of_returnType? (h : parse source = some root) (hw : PlainWords source)
    (ht : t ∈ root.preorder) (htype : returnType? (some t) (Imports.collect root) = some type) :
    IsTypeName type := by
  rw [returnType?, Option.bind_some] at htype
  split at htype
  · obtain ⟨part, hpart, htype⟩ := Option.bind_eq_some_iff.mp htype
    have hm : part ∈ root.preorder :=
      Tree.mem_preorder_child ht (List.mem_filter.mp (List.mem_of_mem_head? hpart)).1
    exact isTypeName_of_simpleReturnType? h hw hm htype
  · exact isTypeName_of_simpleReturnType? h hw ht htype

lemma mem_of_declaredType? {declaration m : Tree} (hd : declaration ∈ root.preorder)
    (hm : declaration.method? name = some m) (ht : m.declaredType? = some t) :
    t ∈ root.preorder := by
  have hm := List.mem_of_find?_eq_some hm
  rw [Tree.membersOf] at hm
  split at hm
  · next body hbody =>
    have hbody := Tree.mem_preorder_child hd (List.mem_of_find?_eq_some hbody)
    have hm := Tree.mem_preorder_child hbody (List.mem_filter.mp hm).1
    obtain ⟨returns, hreturns, ht⟩ := Option.bind_eq_some_iff.mp ht
    have hreturns := Tree.mem_preorder_child hm (List.mem_of_find?_eq_some hreturns)
    exact Tree.mem_preorder_child hreturns (List.mem_filter.mp (List.mem_of_mem_head? ht)).1
  · cases hm

/-- A class that has a type says so in its method `get`. -/
lemma returnType?_of_findingOf {declaration : Tree}
    (h : (findingOf name declaration imports).1 = .type (some type)) :
    ∃ m, declaration.method? "get" = some m ∧ returnType? m.declaredType? imports = some type := by
  rw [findingOf] at h
  split at h
  · split at h
    · cases h
    · next m hm => exact ⟨m, hm, Finding.type.inj h⟩
  · split at h
    · split at h <;> cases h
    · cases h

lemma isTypeName_of_findingAt {node : Option FileNode}
    (hw : ∀ text, node.bind FileNode.text? = some text → PlainWords text)
    (h : findingAt node = .type (some type)) : IsTypeName type := by
  rw [findingAt] at h
  split at h
  · cases h
  · next text htext =>
    split at h
    · cases h
    · next root hroot =>
      split at h
      · cases h
      · next declaration hdeclaration =>
        obtain ⟨m, hm, htype⟩ := returnType?_of_findingOf h
        obtain ⟨t, ht, -⟩ := Option.bind_eq_some_iff.mp htype
        rw [ht] at htype
        have hd : declaration ∈ root.preorder := by
          rw [← Tree.walk_eq]
          exact List.mem_of_find?_eq_some hdeclaration
        exact isTypeName_of_returnType? hroot (hw text htext) (mem_of_declaredType? hd hm ht) htype

lemma isTypeName_of_chain {look : String → Finding} {met : Set String}
    (hlook : ∀ n type, look n = .type (some type) → IsTypeName type)
    (h : Chain look met name (.ok (some type))) : IsTypeName type := by
  generalize ht : Except.ok (some type) = outcome at h
  induction h with
  | again _ => cases ht
  | @ends _ name _ _ hl =>
    subst ht
    refine hlook (ClassName.bare name) _ ?_
    cases hfound : look (ClassName.bare name) <;> simp_all [Finding.outcome?]
  | follows _ _ _ ih => exact ih ht

end Casts

/-! ### Sources of classes -/

def IsSourcePlace (q : List String) : Prop :=
  ".php".toList.isSuffixOf (q.getLast?.getD "").toList = true

instance (q : List String) : Decidable (IsSourcePlace q) :=
  inferInstanceAs (Decidable (_ = true))

def FileTree.PlainWords (files : FileTree) : Prop :=
  ∀ e ∈ files.nodes.entries, IsSourcePlace e.1 → ∀ text ∈ e.2.text?,
    EloquentEntity.PlainWords text

instance (files : FileTree) : Decidable files.PlainWords :=
  decidable_of_iff (files.nodes.entries.all (fun e => !decide (IsSourcePlace e.1) ||
      e.2.text?.all fun text => decide (EloquentEntity.PlainWords text)) = true)
    (by simp [FileTree.PlainWords, List.all_eq_true, Option.all_eq_true, or_iff_not_imp_left])

namespace Casts

variable {files : FileTree} {place : Path} {type name : String}

lemma exists_of_sourcePath? {path : Path} (h : sourcePath? place name = some path) :
    ∃ above x, path.parts = above ++ [String.ofList (x ++ ".php".toList)] := by
  rw [sourcePath?] at h
  dsimp only at h
  split at h
  · rw [← Option.some.inj h, show ".php" = String.ofList ".php".toList from rfl,
      ← String.ofList_append]
    exact Path.parts_below _ _ (by decide) (by decide)
  · cases h

lemma isSourcePlace_of_sourcePlace? {q : List String} (h : sourcePlace? files place name = some q) :
    IsSourcePlace q := by
  obtain ⟨path, hpath, hq⟩ := Option.bind_eq_some_iff.mp h
  obtain ⟨_, x, hparts⟩ := exists_of_sourcePath? hpath
  have hne : String.ofList (x ++ ".php".toList) ≠ ".." := fun h => by
    have h := congrArg (·.toList.length) h
    simp at h
  obtain ⟨above, rfl⟩ := FileTree.place_concat (FileTree.place?_eq_some_iff.mp hq) hparts hne
  simp [IsSourcePlace]

lemma isTypeName_of_findings (hf : files.PlainWords)
    (h : findings files place name = .type (some type)) : IsTypeName type := by
  have hr : ¬Refused files place name := by
    intro hr
    obtain ⟨p, -, he⟩ := findings_of_refused hr
    exact absurd (he.symm.trans h) nofun
  rw [findings_eq hr] at h
  refine isTypeName_of_findingAt (fun text htext => ?_) h
  obtain ⟨n, hn, htext⟩ := Option.bind_eq_some_iff.mp htext
  obtain ⟨q, hplace, hq⟩ := Option.bind_eq_some_iff.mp hn
  by_cases hne : q = []
  · subst hne
    rw [FileTree.node?, if_pos rfl] at hq
    cases hq
    cases htext
  · rw [FileTree.node?, if_neg hne, OrderedMap.get?_eq_some_iff] at hq
    exact hf _ hq (isSourcePlace_of_sourcePlace? hplace) text htext

lemma isTypeName_of_typeBy (hf : files.PlainWords) {descriptor : String}
    (h : typeBy (Resolver.fresh files place) descriptor = .ok type) : IsTypeName type := by
  by_cases hd : descriptor.toList.head? = some '\\'
  · rw [typeBy_of_class hd] at h
    rcases ho : Resolver.fresh files place descriptor with e | t
    · rw [ho] at h
      cases h
    · rw [ho] at h
      obtain rfl := Except.ok.inj h
      dsimp only
      rcases ht : t.filter (· ≠ "") with _ | type
      · exact .inl (by decide)
      · obtain ⟨rfl, -⟩ := Option.filter_eq_some_iff.mp ht
        exact isTypeName_of_chain (fun _ _ => isTypeName_of_findings hf) (Resolver.fresh_iff.mp ho)
  · rw [typeBy_of_keyword hd] at h
    exact Except.ok.inj h ▸ isTypeName_keywordType _

end Casts

namespace Generate

open Procedure

variable {c : Settings} {s : Session}

/-- **Every type is a built-in one or a class name.** The types of columns are found whatever the
casts say, unless a cast names a class whose chain meets one with a source that the system does not
answer for. Each column with a cast has one, in the order of the casts; and each is built in or a
class name after exactly one backslash. -/
theorem resolveTypes_isTypeName (hf : s.files.PlainWords) (c : Settings) (casts : CastMap) :
    ((∃ types, ((resolveTypes c casts).on s).1 = .ok types) ↔
        ¬Casts.Stuck s.files c.projectPath casts) ∧
      ∀ types, ((resolveTypes c casts).on s).1 = .ok types → types.keys = casts.keys ∧
        ∀ e ∈ types.entries, IsTypeName e.2 := by
  have hok (types : ColumnTypes) : ((resolveTypes c casts).on s).1 = .ok types ↔
      Casts.columnTypes (m := Except FileError) (Casts.Resolver.fresh s.files c.projectPath) casts =
        .ok types := by
    rw [Casts.fst_resolveTypes]
    cases Casts.columnTypes (m := Except FileError) _ casts <;> simp [Except.mapError]
  simp only [hok]
  refine ⟨Casts.exists_columnTypes_fresh_iff, fun types htypes => ?_⟩
  obtain ⟨g, hg, rfl⟩ := Casts.columnTypes_eq_ok_iff.mp htypes
  refine ⟨OrderedMap.keys_mapValues _ _, fun e he => ?_⟩
  obtain ⟨e', he', rfl⟩ := List.mem_map.mp he
  exact Casts.isTypeName_of_typeBy hf (hg e' he')

/-- The small project with a source for the class of its cast. -/
theorem resolveTypes_isTypeName_user :
    let files := userFiles.set ["p", "app", "A.php"] (.file (Text.Utf8.encode
      ("<?php use Illuminate\\Contracts\\Database\\Eloquent\\CastsAttributes as C; " ++
        "class A implements C \x7b function get(): \\B; \x7d").toList))
    let casts := OrderedMap.ofList [("a", "\\App\\A")]
    ∃ types, ((resolveTypes userSettings casts).on ⟨files, [], .ofNat 0⟩).1 = .ok types ∧
      types.entries = [("a", "\\B")] ∧ ∀ e ∈ types.entries, IsTypeName e.2 := by
  intro files casts
  have hwords : files.PlainWords := by decide +kernel
  have hentries : ((resolveTypes userSettings casts).on
      ⟨files, [], .ofNat 0⟩).1.toOption.map (·.entries) = some [("a", "\\B")] := by
    decide +kernel
  have hisTypeName :=
    (resolveTypes_isTypeName (s := ⟨files, [], .ofNat 0⟩) hwords userSettings casts).2
  rcases hok : ((resolveTypes userSettings casts).on ⟨files, [], .ofNat 0⟩).1 with e | types
  · rw [hok] at hentries
    cases hentries
  · rw [hok] at hentries
    exact ⟨types, rfl, Option.some.inj hentries, (hisTypeName types hok).2⟩

/-- A cast to a class whose name is too long for a file: no types are found. -/
theorem resolveTypes_fails :
    let casts := OrderedMap.ofList [("a", "\\App\\" ++ Casts.longName)]
    userFiles.PlainWords ∧
      ∃ e, ((resolveTypes userSettings casts).on ⟨userFiles, [], .ofNat 0⟩).1 = .error e := by
  intro casts
  have happ : userFiles.place (userSettings.projectPath.child Settings.appDirectory) =
      .ok ["p", "app"] := by decide +kernel
  have hblocked := Casts.blocked_of_refused (Casts.refused_longName happ (by decide +kernel))
  have hstuck : Casts.Stuck userFiles userSettings.projectPath casts :=
    ⟨"a", _, rfl, by rw [String.toList_append]; rfl, hblocked⟩
  refine ⟨by decide +kernel, ?_⟩
  rw [Casts.fst_resolveTypes]
  rcases htypes : Casts.columnTypes (m := Except FileError)
    (Casts.Resolver.fresh userFiles userSettings.projectPath) casts with e | types
  · exact ⟨_, rfl⟩
  · exact absurd hstuck (Casts.exists_columnTypes_fresh_iff.mp ⟨types, htypes⟩)

end Generate

end EloquentEntity

import EloquentEntity.Proofs.Casts.TypeName
import EloquentEntity.Proofs.Imports.Entries

/-!
The shape of what a source imports.

A name in a source ends in a word. In ASCII text a word has no white space in it, so that something
is left of its last segment when white space is taken out. This makes short names of the segments,
and no text with a backslash in it is a short name.
-/

namespace EloquentEntity

open Syntax Syntax.Tree

variable {source : String} {root t c d : Tree} {e : String × String}

/-! ### ASCII sources -/

def IsAscii (source : String) : Prop := ∀ c ∈ source.toList, c.toNat < 128

instance (source : String) : Decidable (IsAscii source) :=
  List.decidableBAll (fun c : Char => c.toNat < 128) source.toList

namespace Syntax

lemma mem_of_mem_tokensFrom {fuel : Nat} {modes : List Mode} {g : Gap} {t : Token} {c : Char}
    (ht : t ∈ tokensFrom fuel modes g) (hc : c ∈ t.text) : c ∈ g.rest := by
  induction fuel generalizing modes g with
  | zero =>
    obtain rfl : t = ⟨g.chars, .unknown, [], g.afterTag⟩ := by simpa [tokensFrom] using ht
    cases hc
  | succ fuel ih =>
    rw [tokensFrom] at ht
    dsimp only at ht
    split at ht
    · obtain rfl := List.mem_singleton.mp ht
      exact List.mem_of_mem_take hc
    · rcases List.mem_cons.mp ht with rfl | ht
      · exact List.mem_of_mem_take hc
      · have hrest := ih ht
        split at hrest
        · exact List.mem_of_mem_drop hrest
        · exact List.mem_of_mem_drop (List.mem_of_mem_drop hrest)

lemma mem_of_mem_tokens {t : Token} {c : Char} (ht : t ∈ tokens source) (hc : c ∈ t.text) :
    c ∈ source.toList :=
  List.mem_of_mem_drop (List.mem_of_mem_drop (mem_of_mem_tokensFrom ht hc))

lemma isBlank_of_isWordPart {c : Char} (h : isWordPart c = true) (hc : c.toNat < 128) :
    Text.isBlank c = false :=
  Text.isBlank_eq_false (Nat.lt_of_lt_of_le (by decide) (toNat_of_isWordPart h)) hc

lemma plainWords_of_isAscii (h : parse source = some root) (hascii : IsAscii source) :
    PlainWords source := by
  intro t ht hk c hc
  have hword := (word_of_parse h (tokens_of_parse h ▸ ht) hk).2 c hc
  exact isBlank_of_isWordPart hword (hascii c (mem_of_mem_tokens ht hc))

end Syntax

namespace Imports

/-! ### Short names and full names -/

def Unbroken (name : String) : Prop := ∀ c ∈ name.toList, Text.isBlank c = false

/-- A segment: not empty, with neither white space nor a backslash in it. -/
structure IsShortName (name : String) : Prop where
  ne : name ≠ ""
  notMem : '\\' ∉ name.toList
  unbroken : Unbroken name

/-- A name: not empty, without white space in it, and with a backslash at neither end. -/
structure IsFullName (name : String) : Prop where
  isBare : ClassName.IsBare name
  getLast?_ne : name.toList.getLast? ≠ some '\\'
  unbroken : Unbroken name

variable {name base segment : String}

lemma Unbroken.of_subset (h : Unbroken base) (hs : name.toList ⊆ base.toList) : Unbroken name :=
  fun c hc => h c (hs hc)

lemma unbroken_nameText (t : Tree) : Unbroken t.nameText := by
  intro c hc
  rw [nameText, String.toList_ofList] at hc
  simpa using (List.mem_filter.mp hc).2

lemma bare_subset (name : String) : (ClassName.bare name).toList ⊆ name.toList := by
  rw [ClassName.bare, String.toList_ofList]
  exact (List.dropWhile_suffix _).subset

lemma short_subset (name : String) : (ClassName.short name).toList ⊆ name.toList := by
  rw [ClassName.short, String.toList_ofList, List.reverse_subset]
  exact fun c hc => List.mem_reverse.mp ((List.takeWhile_prefix _).subset hc)

lemma unbroken_bare (t : Tree) : Unbroken (ClassName.bare t.nameText) :=
  (unbroken_nameText t).of_subset (bare_subset _)

/-- The bare form of a name that ends in a word. -/
lemma isFullName_bare (h : t.EndsPlain) : IsFullName (ClassName.bare t.nameText) := by
  refine ⟨h.isBare_bare, ?_, unbroken_bare t⟩
  obtain ⟨front, c, hbare, hc⟩ := h.exists_bare_eq
  rw [hbare, String.toList_ofList, List.getLast?_concat]
  simpa using hc

lemma IsFullName.isShortName_short (h : IsFullName name) : IsShortName (ClassName.short name) := by
  refine ⟨?_, notMem_short name, h.unbroken.of_subset (short_subset name)⟩
  have hne : name.toList ≠ [] := by simpa using h.isBare.1
  have hlast : name.toList.getLast hne ≠ '\\' := fun heq =>
    h.getLast?_ne (by rw [List.getLast?_eq_some_getLast hne, heq])
  have hsplit : String.ofList (name.toList.dropLast ++ [name.toList.getLast hne]) = name := by
    rw [List.dropLast_append_getLast, String.ofList_toList]
  rw [← hsplit]
  exact ClassName.short_ne hlast

lemma IsShortName.isFullName (h : IsShortName name) : IsFullName name :=
  ⟨⟨h.ne, fun hhead => h.notMem (List.mem_of_mem_head? hhead)⟩,
    fun hlast => h.notMem (List.mem_of_getLast? hlast), h.unbroken⟩

lemma IsShortName.append (h : IsShortName segment) (hbase : ClassName.IsBare base)
    (hunbroken : Unbroken base) : IsFullName (base ++ "\\" ++ segment) := by
  have htext : (base ++ "\\" ++ segment).toList = base.toList ++ '\\' :: segment.toList := by simp
  refine ⟨(hbase.append _).append _, ?_, ?_⟩
  · have hne : segment.toList ≠ [] := by simpa using h.ne
    rw [htext, List.append_cons, List.getLast?_append_of_ne_nil _ hne]
    exact h.isFullName.getLast?_ne
  · intro c hc
    rw [htext, List.mem_append, List.mem_cons] at hc
    rcases hc with hc | rfl | hc
    · exact hunbroken c hc
    · decide
    · exact h.unbroken c hc

/-! ### The names in clauses -/

lemma isFullName_of_clauseParts? (h : parse source = some root) (hw : PlainWords source)
    (hc : c ∈ root.preorder) (hclause : IsClause c) {newName : Option String}
    (hparts : clauseParts? c = some (name, newName)) :
    IsFullName name ∧ ∀ a ∈ newName, a ≠ "" ∧ Unbroken a := by
  obtain ⟨t, more, hnodes, ht⟩ : ∃ t more, c.nodes = t :: more ∧ IsName t := by
    obtain ⟨t, ht, hnodes | ⟨w, hnodes, -⟩⟩ := hclause.nodes_cases
    · exact ⟨t, _, hnodes, ht⟩
    · exact ⟨t, _, hnodes, ht⟩
  have hmem : t ∈ root.preorder := by
    refine mem_preorder_child hc (List.mem_of_mem_filter (p := (·.kind?.isSome)) ?_)
    rw [← nodes, hnodes]
    exact List.mem_cons_self
  rw [clauseParts?, hnodes] at hparts
  dsimp only at hparts
  split at hparts
  · cases hparts
  · obtain ⟨rfl, rfl⟩ := Prod.mk.inj (Option.some.inj hparts)
    refine ⟨isFullName_bare (endsPlain_of_mem h hw hmem ht.kind), fun a ha => ?_⟩
    obtain ⟨ha, hne⟩ := Option.filter_eq_some_iff.mp ha
    obtain ⟨l, -, rfl⟩ := Option.map_eq_some_iff.mp ha
    exact ⟨by simpa using hne, unbroken_nameText l⟩

/-- The name in front of a group has no backslash in front. -/
lemma baseName_shape (d : Tree) :
    (baseName d).toList.head? ≠ some '\\' ∧ Unbroken (baseName d) := by
  rw [baseName]
  cases d.child? .namespaceName with
  | none => exact ⟨by simp, fun c hc => by cases hc⟩
  | some n => exact ⟨ClassName.head?_bare_ne n.nameText, unbroken_bare n⟩

/-- What stands in a group is a segment behind the name in front of the group. -/
lemma isFullName_groupEntry (h : IsFullName name) (newName : Option String) :
    IsFullName (groupEntry (baseName d) (name, newName)).2 := by
  rw [groupEntry]
  dsimp only
  split
  · exact h.isShortName_short.isFullName
  · next hbase =>
    obtain ⟨hhead, hunbroken⟩ := baseName_shape d
    exact h.isShortName_short.append ⟨hbase, hhead⟩ hunbroken

/-- **What a clause enters:** a full name under a short one. -/
lemma names_of_clauseImport? (h : parse source = some root) (hw : PlainWords source)
    {x : Tree × Tree} (hx : x ∈ allClauses root) (he : clauseImport? x.1 x.2 = some e) :
    IsShortName e.1 ∧ IsFullName e.2 := by
  have hkey := notMem_key h hx he
  obtain ⟨d, c⟩ := x
  obtain ⟨hd, hk, hc⟩ := mem_allClauses hx
  have hclause := (isDeclaration_of_parse h hd hk).isClause hc
  have hmem : c ∈ root.preorder := preorder_trans hd (mem_of_mem_clauses hc)
  obtain ⟨name, newName, hparts, hgiven⟩ := key_cases he
  obtain ⟨hname, hnew⟩ := isFullName_of_clauseParts? h hw hmem hclause hparts
  -- the alias, or else the last segment
  have hshort : e.1 ≠ "" ∧ Unbroken e.1 := by
    rw [hgiven]
    cases newName with
    | none => exact ⟨hname.isShortName_short.ne, hname.isShortName_short.unbroken⟩
    | some a => exact hnew a rfl
  have hfull : IsFullName e.2 := by
    rw [clauseImport?, hparts] at he
    split at he
    · cases he
    · obtain rfl := Option.some.inj he
      split
      · exact isFullName_groupEntry hname newName
      · exact hname
  exact ⟨⟨hshort.1, hkey, hshort.2⟩, hfull⟩

lemma names_of_mem_entries (h : parse source = some root) (hw : PlainWords source)
    (he : e ∈ entries root) : IsShortName e.1 ∧ IsFullName e.2 := by
  rw [entries_eq_filterMap] at he
  obtain ⟨x, hx, he⟩ := List.mem_filterMap.mp he
  exact names_of_clauseImport? h hw hx he

/-- A name of several segments is no short name, so that it is kept. -/
lemma resolve_of_mem (h : parse source = some root) (n : Nat)
    (hhead : name.toList.head? ≠ some '\\') (hmem : '\\' ∈ name.toList) :
    ClassName.resolve (String.ofList (List.replicate n '\\') ++ name) (collect root) =
      "\\" ++ name := by
  have hbare : ClassName.bare (String.ofList (List.replicate n '\\') ++ name) = name := by
    have hlead : ∀ c ∈ List.replicate n '\\', (c == '\\') = true := by
      simp [List.mem_replicate]
    rw [ClassName.bare, String.toList_append, String.toList_ofList,
      Text.dropWhile_append_stop hlead fun c hc => ?_, String.ofList_toList]
    rw [beq_eq_false_iff_ne]
    rintro rfl
    exact hhead hc
  rw [ClassName.resolve, hbare, get?_collect_eq_none h hmem]
  dsimp only
  rw [ClassName.qualify, hbare]

/-- **The names in import maps.** What an ASCII source imports are full names under short ones: a
short name is not empty and has neither white space nor a backslash in it; a full name is not empty,
has no white space in it, and neither begins nor ends with a backslash. So a name of two or more
segments, with any number of backslashes in front, stands for itself whatever is imported. -/
theorem collect_names (h : parse source = some root) (hascii : IsAscii source) :
    (∀ e ∈ OrderedMap.entries (collect root), IsShortName e.1 ∧ IsFullName e.2) ∧
    ∀ (n : Nat) (name : String), name.toList.head? ≠ some '\\' → '\\' ∈ name.toList →
      ClassName.resolve (String.ofList (List.replicate n '\\') ++ name) (collect root) =
        "\\" ++ name := by
  refine ⟨fun e he => ?_, fun n name hhead hmem => resolve_of_mem h n hhead hmem⟩
  have hentry := OrderedMap.mem_of_get?_ofList (OrderedMap.get?_eq_some_iff.mpr he)
  exact names_of_mem_entries h (plainWords_of_isAscii h hascii) hentry

/-- A class with a space and a comment in its name, a group, and a name of two segments of which the
first is imported. -/
theorem collect_names_group :
    ∃ root ∈ parse "<?php use \\App\\ Casts /* c */; use A\\B\\\x7bMoney, C\\Json as J\x7d;",
      OrderedMap.entries (collect root) =
        [("Casts", "App\\Casts"), ("Money", "A\\B\\Money"), ("J", "A\\B\\Json")] ∧
      (∀ e ∈ OrderedMap.entries (collect root), IsShortName e.1 ∧ IsFullName e.2) ∧
      ClassName.resolve "\\J\\D" (collect root) = "\\J\\D" := by
  have hascii : IsAscii
      "<?php use \\App\\ Casts /* c */; use A\\B\\\x7bMoney, C\\Json as J\x7d;" := by
    decide +kernel
  have hentries :
      ∃ root ∈ parse "<?php use \\App\\ Casts /* c */; use A\\B\\\x7bMoney, C\\Json as J\x7d;",
        OrderedMap.entries (collect root) =
          [("Casts", "App\\Casts"), ("Money", "A\\B\\Money"), ("J", "A\\B\\Json")] := by
    decide +kernel
  obtain ⟨root, hparse, hentries⟩ := hentries
  obtain ⟨hnames, hresolve⟩ := collect_names hparse hascii
  exact ⟨root, hparse, hentries, hnames, hresolve 1 "J\\D" (by decide) (by decide)⟩

end Imports

end EloquentEntity

import EloquentEntity.Proofs.Imports.Entries
import EloquentEntity.Proofs.Syntax.Spelling

/-!
Clauses that import a given class under a given short name.

The class is written out, or it is the member of a group behind the rest of its name; the short name
is its last segment or an alias. Such a clause enters just this name under just this short name.
-/

namespace EloquentEntity

open Syntax Syntax.Tree

variable {name space short : String} {c d t : Tree} {more : List Tree} {w : List Char}

/-! ### Class names -/

lemma notMem_of_isSegment (h : IsSegment w) : '\\' ∉ w := h.1.isWord.notMem (by decide)

lemma isSegment_short (hq : IsQualifiedName name) :
    IsSegment (ClassName.short name).toList := by
  rw [EntityDefinition.short_of_isQualifiedName hq, String.toList_ofList]
  exact EntityDefinition.isSegment_of_mem_words hq _ (Segments.last_mem _)

lemma IsQualifiedName.front (h : IsQualifiedName (space ++ "\\" ++ short)) :
    IsQualifiedName space := by
  intro w hw
  refine h w ?_
  have htext : (space ++ "\\" ++ short).toList = space.toList ++ '\\' :: short.toList := by simp
  rw [htext, List.splitOn_append_cons_self]
  exact List.mem_append_left _ hw

lemma ne_empty_of_isQualifiedName (h : IsQualifiedName name) : name ≠ "" := by
  rintro rfl
  exact absurd h (by decide)

lemma isQualifiedName_of_isSegment (h : IsSegment name.toList) : IsQualifiedName name := by
  intro w hw
  rw [List.splitOn_eq_singleton (notMem_of_isSegment h), List.mem_singleton] at hw
  rwa [hw]

namespace Imports

/-- The name of a tree that spells out a class, without the backslash in front. -/
lemma bare_of_spells {lead : Bool} (h : t.Spells (namePatterns lead (.ofName name.toList)))
    (hq : IsQualifiedName name) : ClassName.bare t.nameText = name := by
  have hw := EntityDefinition.isSegment_of_mem_words hq
  rw [nameText_of_spells h fun w hm => (hw w hm).1, Segments.text_ofName]
  cases lead with
  | true =>
    rw [if_pos rfl, List.singleton_append, ClassName.bare_backslash, String.ofList_toList]
    exact EntityDefinition.bare_of_isQualifiedName hq
  | false =>
    rw [if_neg (by simp), List.nil_append, String.ofList_toList]
    exact EntityDefinition.bare_of_isQualifiedName hq

/-! ### Clauses -/

/-- The nodes after the name give an alias, or else the name stands. -/
def IsGiven (more : List Tree) (name short : String) : Prop :=
  (more = [] ∧ short = name) ∨ ∃ l, more = [l] ∧ l.text = short.toList

/-- The clause `c` of the declaration `d` imports a class under a short name. -/
inductive Binds (name short : String) (d c : Tree) : Prop
  /-- The class is written out. -/
  | single {t more lead} : d.child? .useGroup = none → c.nodes = t :: more →
      t.Spells (namePatterns lead (.ofName name.toList)) →
      IsGiven more (ClassName.short name) short → Binds name short d c
  /-- The last segment of the class stands in a group, the others in front of it. -/
  | member {space s t more} : (d.child? .useGroup).isSome = true →
      d.child? .namespaceName = some s → s.Spells (namePatterns false (.ofName space.toList)) →
      c.nodes = t :: more →
      t.Spells (namePatterns false (.ofName (ClassName.short name).toList)) →
      name = space ++ "\\" ++ ClassName.short name →
      IsGiven more (ClassName.short name) short → Binds name short d c

lemma clauseParts?_of_nodes (hnodes : c.nodes = t :: more) (hbare : ClassName.bare t.nameText = name)
    (hne : name ≠ "") (hgiven : IsGiven more (ClassName.short name) short)
    (hs : IsAsciiLabel short.toList) :
    ∃ newName, clauseParts? c = some (name, newName) ∧
      newName.getD (ClassName.short name) = short := by
  rw [clauseParts?, hnodes]
  dsimp only
  rw [hbare, if_neg hne]
  refine ⟨_, rfl, ?_⟩
  obtain ⟨rfl, rfl⟩ | ⟨l, rfl, hl⟩ := hgiven
  · rfl
  · have hblank : Text.withoutBlanks short.toList = short.toList :=
      List.filter_eq_self.mpr fun c hc => by simp [hs.isBlank_eq_false hc]
    have htext : l.nameText = short := by rw [nameText, hl, hblank, String.ofList_toList]
    have hne : short ≠ "" := by
      rintro rfl
      exact absurd hs (by decide)
    rw [List.getLast?_singleton, Option.map_some, htext, Option.filter_some_pos (by simpa using hne),
      Option.getD_some]

/-- **What a clause says is what is entered.** -/
lemma Binds.clauseImport?_eq (h : Binds name short d c) (hq : IsQualifiedName name)
    (hs : IsAsciiLabel short.toList) (hd : isNoClass d = false) (hc : isNoClass c = false) :
    clauseImport? d c = some (short, name) := by
  have hcond : (isNoClass d || isNoClass c) = false := by rw [hd, hc]; rfl
  rw [clauseImport?, if_neg (by simp [hcond])]
  cases h with
  | single hgroup hnodes ht hgiven =>
    obtain ⟨newName, hparts, hshort⟩ := clauseParts?_of_nodes hnodes (bare_of_spells ht hq)
      (ne_empty_of_isQualifiedName hq) hgiven hs
    rw [hgroup, hparts]
    simp [plainEntry, hshort]
  | @member space s t more hgroup hspace hs' hnodes ht hname hgiven =>
    have hlast := isSegment_short hq
    have hself : ClassName.short (ClassName.short name) = ClassName.short name := by
      have := ClassName.short_of_notMem (notMem_of_isSegment hlast)
      rwa [String.ofList_toList] at this
    have hbare := bare_of_spells ht (isQualifiedName_of_isSegment hlast)
    rw [← hself] at hgiven
    obtain ⟨newName, hparts, hshort⟩ := clauseParts?_of_nodes hnodes hbare
      (ne_empty_of_isQualifiedName (isQualifiedName_of_isSegment hlast)) hgiven hs
    have hfront : IsQualifiedName space := IsQualifiedName.front (hname ▸ hq)
    have hbase : baseName d = space := by
      rw [baseName, hspace, Option.map_some, Option.getD_some, bare_of_spells hs' hfront]
    rw [if_pos hgroup, hparts, hbase, Option.map_some, groupEntry]
    simp only [hself, if_neg (ne_empty_of_isQualifiedName hfront), ← hname]
    rw [hself] at hshort
    rw [hshort]

end Imports

end EloquentEntity

import EloquentEntity.Proofs.ClassName
import EloquentEntity.Proofs.Entity.Tree

/-!
Definitions whose names can be read back.

Column names are labels, and so are the segments of class names, of which none is a keyword. The
outline of such a definition consists of words, and no rule takes one of them for a keyword.
-/

namespace EloquentEntity

open Syntax

def IsAsciiLabel (w : List Char) : Prop := Text.isLabel w = true ∧ ∀ c ∈ w, c.toNat < 128

instance (w : List Char) : Decidable (IsAsciiLabel w) :=
  have : Decidable (∀ c ∈ w, c.toNat < 128) := List.decidableBAll _ _
  inferInstanceAs (Decidable (_ ∧ _))

/-- Words that are no names of classes, in any case. -/
def reservedWords : List String :=
  ["__halt_compiler", "abstract", "and", "array", "as", "break", "callable", "case", "catch",
   "class", "clone", "const", "continue", "declare", "default", "die", "do", "echo", "else",
   "elseif", "empty", "enddeclare", "endfor", "endforeach", "endif", "endswitch", "endwhile",
   "eval", "exit", "extends", "final", "finally", "fn", "for", "foreach", "function", "global",
   "goto", "if", "implements", "include", "include_once", "instanceof", "insteadof", "interface",
   "isset", "list", "match", "namespace", "new", "or", "print", "private", "protected", "public",
   "readonly", "require", "require_once", "return", "static", "switch", "throw", "trait", "try",
   "unset", "use", "var", "while", "xor", "yield"]

instance (ws : List String) (w : List Char) : Decidable (IsNone ws w) :=
  inferInstanceAs (Decidable (∀ k ∈ ws, asciiLower w ≠ k.toList))

instance (w : List Char) : Decidable (Outline.StandsAsType w) :=
  inferInstanceAs (Decidable (IsNone _ w))

def IsSegment (w : List Char) : Prop := IsAsciiLabel w ∧ IsNone reservedWords w

instance (w : List Char) : Decidable (IsSegment w) := inferInstanceAs (Decidable (_ ∧ _))

def IsQualifiedName (name : String) : Prop := ∀ w ∈ name.toList.splitOn '\\', IsSegment w

instance (name : String) : Decidable (IsQualifiedName name) :=
  inferInstanceAs (Decidable (∀ w ∈ name.toList.splitOn '\\', IsSegment w))

def builtInTypes : List String := ["int", "float", "bool", "string", "array"]

/-- A built-in type, or a class name after a backslash. -/
def IsFieldType (type : String) : Prop :=
  type ∈ builtInTypes ∨ ∃ name, type = "\\" ++ name ∧ IsQualifiedName name

/-! ### Words -/

section Words

variable {c : Char} {w : List Char}

lemma isWordStart_of_isLabelStart (h : Text.isLabelStart c = true) (hc : c.toNat < 128) :
    isWordStart c = true := by
  have hrange : (0x80 ≤ c.toNat && c.toNat ≤ 0xFFFF : Bool) = false := by
    simp
    omega
  rw [Text.isLabelStart, hrange, Bool.or_false] at h
  rw [isWordStart, h, Bool.true_or]

lemma IsAsciiLabel.isWord (h : IsAsciiLabel w) : IsWord w := by
  obtain ⟨hlabel, hascii⟩ := h
  cases w with
  | nil => simp [Text.isLabel] at hlabel
  | cons c w =>
    rw [Text.isLabel, Bool.and_eq_true] at hlabel
    have hstart := isWordStart_of_isLabelStart hlabel.1 (hascii c (by simp))
    refine ⟨hstart, ?_⟩
    rw [List.all_cons, Bool.and_eq_true]
    refine ⟨by simp [isWordPart, hstart], List.all_eq_true.mpr fun d hd => ?_⟩
    have hpart := List.all_eq_true.mp hlabel.2 d hd
    rw [Text.isLabelChar, Bool.or_eq_true] at hpart
    rw [isWordPart, Bool.or_eq_true]
    exact hpart.imp_left (isWordStart_of_isLabelStart · (hascii d (by simp [hd])))

lemma IsAsciiLabel.isBlank_eq_false (h : IsAsciiLabel w) (hc : c ∈ w) : Text.isBlank c = false := by
  have hlow := toNat_of_isWordPart (List.all_eq_true.mp h.isWord.2 c hc)
  exact Text.isBlank_eq_false (by omega) (h.2 c hc)

lemma IsSegment.startsImport (h : IsSegment w) : Outline.StartsImport w := h.2.mono (by decide)

lemma IsSegment.standsAsType (h : IsSegment w) : Outline.StandsAsType w := h.2.mono (by decide)

end Words

/-! ### Segments -/

namespace Segments

variable {n : Segments}

def last (n : Segments) : List Char := n.more.getLastD n.first

lemma last_mem (n : Segments) : n.last ∈ n.words := by
  rw [last, List.getLastD_eq_getLast?]
  cases h : n.more.getLast? with
  | none => simp [words]
  | some w => exact List.mem_cons_of_mem _ (List.mem_of_getLast? h)

lemma short_append_text (hw : ∀ w ∈ n.words, '\\' ∉ w) (s : List Char) :
    ClassName.short (String.ofList (s ++ '\\' :: n.text)) = String.ofList n.last := by
  obtain ⟨first, more⟩ := n
  induction more generalizing first s with
  | nil =>
    have h := ClassName.short_append (hw first (by simp [words])) s
    simpa [text, last] using h
  | cons w ws ih =>
    have h := ih (s ++ '\\' :: first) w fun v hv => hw v (List.mem_cons_of_mem _ hv)
    rw [last, List.getLastD_cons]
    rw [List.append_assoc] at h
    exact h

lemma short_text (hw : ∀ w ∈ n.words, '\\' ∉ w) :
    ClassName.short (String.ofList n.text) = String.ofList n.last := by
  obtain ⟨first, more⟩ := n
  cases more with
  | nil =>
    have h := ClassName.short_of_notMem (hw first (by simp [words]))
    simpa [text, last] using h
  | cons w ws =>
    have h := short_append_text (n := ⟨w, ws⟩) (fun v hv => hw v (List.mem_cons_of_mem _ hv)) first
    rw [last, List.getLastD_cons]
    exact h

lemma bare_text (hw : ∀ w ∈ n.words, IsWord w) :
    ClassName.bare (String.ofList n.text) = String.ofList n.text := by
  refine ClassName.bare_of_notMem_head? fun h => ?_
  have hfirst : IsWord n.first := hw _ (by simp [words])
  cases hn : n.first with
  | nil => simp [IsWord, startsWord, hn] at hfirst
  | cons c w =>
    rw [hn] at hfirst
    have hc : c = '\\' := by simpa [text, hn] using h
    exact hfirst.notMem (c := '\\') (by decide) (by simp [hc])

end Segments

/-! ### Definitions -/

namespace EntityDefinition

def importedNames (d : EntityDefinition) : List String :=
  ClassName.importNames (d.properties.filterMap (·.importName) ++ [d.baseClass.importName])

/-- A definition whose names can be read back. Its imported classes differ in their last
segments. -/
structure Legible (d : EntityDefinition) : Prop where
  namespaceName : ∀ w ∈ d.namespaceName.toList.splitOn '\\', IsAsciiLabel w
  className : IsAsciiLabel d.className.toList
  columns : ∀ f ∈ d.properties, IsAsciiLabel f.name.toList
  types : ∀ f ∈ d.properties, IsFieldType f.type
  imports : ∀ m ∈ d.importedNames, ∀ n ∈ d.importedNames,
    ClassName.short m = ClassName.short n → m = n

variable {d : EntityDefinition} {f : EntityField} {name : String}

lemma isSegment_of_mem_words (hq : IsQualifiedName name) :
    ∀ w ∈ (Segments.ofName name.toList).words, IsSegment w := by
  rw [Segments.words_ofName]
  exact hq

lemma isWord_of_mem_words (hq : IsQualifiedName name) :
    ∀ w ∈ (Segments.ofName name.toList).words, IsWord w :=
  fun w hw => (isSegment_of_mem_words hq w hw).1.isWord

lemma ofList_text (name : String) : String.ofList (Segments.ofName name.toList).text = name := by
  rw [Segments.text_ofName, String.ofList_toList]

lemma bare_of_isQualifiedName (hq : IsQualifiedName name) : ClassName.bare name = name := by
  have h := Segments.bare_text (isWord_of_mem_words hq)
  rwa [ofList_text] at h

lemma short_of_isQualifiedName (hq : IsQualifiedName name) :
    ClassName.short name = String.ofList (Segments.ofName name.toList).last := by
  have hnone : ∀ w ∈ (Segments.ofName name.toList).words, '\\' ∉ w :=
    fun w hw => (isWord_of_mem_words hq w hw).notMem (by decide)
  have h := Segments.short_text hnone
  rwa [ofList_text] at h

/-- The class of a type is imported, and its last segment is written. -/
lemma importName_of_class (h : f.type = "\\" ++ name) (hq : IsQualifiedName name) :
    f.importName = some name ∧ f.writtenType = ClassName.short name := by
  have htype : f.type = String.ofList ('\\' :: (Segments.ofName name.toList).text) := by
    rw [h, Segments.text_ofName, String.ofList_cons, String.ofList_toList]
    rfl
  have hbare : ClassName.bare f.type = name := by
    rw [htype, ClassName.bare_backslash, ofList_text, bare_of_isQualifiedName hq]
  have hshort : ClassName.short f.type = ClassName.short name := by
    rw [htype, short_of_isQualifiedName hq]
    exact Segments.short_append_text
      (fun w hw => (isWord_of_mem_words hq w hw).notMem (by decide)) []
  have hclass : ClassName.isClass f.type = true := by
    rw [ClassName.isClass, htype, String.toList_ofList]
    simp
  rw [EntityField.importName, EntityField.writtenType, if_pos hclass, if_pos hclass, hbare, hshort]
  exact ⟨rfl, rfl⟩

lemma importName_of_builtIn (h : f.type ∈ builtInTypes) :
    f.importName = none ∧ f.writtenType = f.type := by
  have hclass : ∀ type ∈ builtInTypes, ClassName.isClass type = false := by decide
  have hclass := hclass f.type h
  rw [EntityField.importName, EntityField.writtenType, hclass]
  exact ⟨rfl, rfl⟩

lemma writtenType_word (h : IsFieldType f.type) :
    IsWord f.writtenType.toList ∧ Outline.StandsAsType f.writtenType.toList := by
  rcases h with h | ⟨name, h, hq⟩
  · have hall : ∀ type ∈ builtInTypes,
        IsWord type.toList ∧ Outline.StandsAsType type.toList := by decide
    rw [(importName_of_builtIn h).2]
    exact hall f.type h
  · have hsegment := isSegment_of_mem_words hq _ (Segments.last_mem _)
    rw [(importName_of_class h hq).2, short_of_isQualifiedName hq, String.toList_ofList]
    exact ⟨hsegment.1.isWord, hsegment.standsAsType⟩

lemma isQualifiedName_baseClass (b : BaseClass) : IsQualifiedName b.importName := by
  cases b <;> decide

/-- A class is imported for a type, or it is the base class. -/
lemma isQualifiedName_of_mem (h : d.Legible) (hn : name ∈ d.importedNames) :
    IsQualifiedName name := by
  obtain ⟨-, m, hm, rfl⟩ := ClassName.mem_importNames_iff.mp hn
  rcases List.mem_append.mp hm with hm | hm
  · obtain ⟨f, hf, himport⟩ := List.mem_filterMap.mp hm
    rcases h.types f hf with htype | ⟨name, htype, hq⟩
    · rw [(importName_of_builtIn htype).1] at himport
      cases himport
    · obtain rfl : name = m := by simpa [(importName_of_class htype hq).1] using himport
      rwa [bare_of_isQualifiedName hq]
  · obtain rfl := List.mem_singleton.mp hm
    have hq := isQualifiedName_baseClass d.baseClass
    rwa [bare_of_isQualifiedName hq]

lemma importedNames_ne_nil (d : EntityDefinition) : d.importedNames ≠ [] := by
  have hbase : d.baseClass.importName ∈ d.importedNames := by
    refine ClassName.mem_importNames_iff.mpr
      ⟨?_, _, by simp, bare_of_isQualifiedName (isQualifiedName_baseClass _)⟩
    cases d.baseClass <;> decide
  exact List.ne_nil_of_mem hbase

variable {first : String} {more : List String}

lemma words_of_mem_imports (h : d.Legible) (hi : d.importedNames = first :: more) :
    ∀ n ∈ (d.outline first more).firstImport :: (d.outline first more).moreImports,
      ∀ w ∈ n.words, IsSegment w := by
  have hnames : (d.outline first more).firstImport :: (d.outline first more).moreImports =
      d.importedNames.map fun n => Segments.ofName n.toList := by rw [hi]; rfl
  rw [hnames]
  intro n hn
  obtain ⟨name, hname, rfl⟩ := List.mem_map.mp hn
  exact isSegment_of_mem_words (isQualifiedName_of_mem h hname)

lemma Legible.spelled (h : d.Legible) (hi : d.importedNames = first :: more) :
    (d.outline first more).Spelled where
  space w hw := by
    rw [outline, Segments.words_ofName] at hw
    exact (h.namespaceName w hw).isWord
  imports n hn w hw := (words_of_mem_imports h hi n hn w hw).1.isWord
  name := h.className.isWord
  base := by
    have hbase (b : BaseClass) : IsWord b.name.toList := by cases b <;> decide
    exact hbase d.baseClass
  properties p hp := by
    obtain ⟨f, hf, rfl⟩ := List.mem_map.mp hp
    exact ⟨(writtenType_word (h.types f hf)).1, (h.columns f hf).isWord⟩

lemma Legible.unreserved (h : d.Legible) (hi : d.importedNames = first :: more) :
    (d.outline first more).Unreserved where
  imports n hn := (words_of_mem_imports h hi n hn n.first List.mem_cons_self).startsImport
  properties p hp := by
    obtain ⟨f, hf, rfl⟩ := List.mem_map.mp hp
    exact (writtenType_word (h.types f hf)).2

end EntityDefinition

end EloquentEntity

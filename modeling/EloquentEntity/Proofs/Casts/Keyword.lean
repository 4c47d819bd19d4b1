import EloquentEntity.Casts.Keyword
import EloquentEntity.Proofs.Text.Ascii
import EloquentEntity.Proofs.Text.Ends

/-!
The types of casts that are named by a keyword.

What counts of a descriptor is the text in front of its first colon, without the white space around
it and in lower case. So its parameters, white space around the keyword and the case of ASCII
letters do not matter, whether there is such a keyword or not.
-/

namespace EloquentEntity.Casts

open Syntax

variable {d d' u v : String}

def typesOfKeywords : List String :=
  [stringType, intType, floatType, boolType, arrayType, collectionType, dateType]

lemma notMem_of_asciiLower {s t : List Char} (h : asciiLower s = asciiLower t) (ht : ':' ∉ t) :
    ':' ∉ s := by
  have hcolon (c : Char) : (c.toLower == ':') = (c == ':') :=
    Text.apply_toLower (f := (· == ':')) (by decide) c
  intro hs
  have hm : ':' ∈ asciiLower t := h ▸ List.mem_map.mpr ⟨':', hs, rfl⟩
  obtain ⟨c, hc, heq⟩ := List.mem_map.mp hm
  have hc' : (c == ':') = true := by rw [← hcolon, heq]; rfl
  exact ht (beq_iff_eq.mp hc' ▸ hc)

/-- White space around a text does not count, nor does the case of its letters. -/
lemma lower_trim_append {s t x y : List Char} (h : asciiLower s = asciiLower t)
    (hx : ∀ c ∈ x, Text.isBlank c) (hy : ∀ c ∈ y, Text.isBlank c) :
    Text.lower (Text.trim (x ++ s ++ y)) = Text.lower (Text.trim t) := by
  have hstrip (s : List Char) : Text.trim (asciiLower s) = asciiLower (Text.trim s) := by
    rw [Text.trim_eq_strip, asciiLower, Text.strip_map Text.isBlank_toLower]
    rfl
  refine Text.lower_congr ?_
  rw [Text.trim_eq_strip, Text.strip_append hx hy, ← Text.trim_eq_strip, ← hstrip, h, hstrip]

/-- The keyword of a text without a colon, in any case and with white space around it. -/
lemma keyword_append (hd : ':' ∉ d.toList) (hcase : asciiLower d'.toList = asciiLower d.toList)
    (hu : ∀ c ∈ u.toList, Text.isBlank c) (hv : ∀ c ∈ v.toList, Text.isBlank c) :
    keyword (u ++ d' ++ v) = keyword d ∧ ∀ x, keyword (u ++ d' ++ v ++ ":" ++ x) = keyword d := by
  have hblank {w : List Char} (hw : ∀ c ∈ w, Text.isBlank c) : ':' ∉ w := fun hm =>
    absurd (hw _ hm) (by decide)
  have hall : ':' ∉ u.toList ++ d'.toList ++ v.toList := by
    simp only [List.mem_append, not_or]
    exact ⟨⟨hblank hu, notMem_of_asciiLower hcase hd⟩, hblank hv⟩
  have hlower := lower_trim_append hcase hu hv
  have hfront : (d.toList.takeWhile (· != ':')) = d.toList := Text.takeWhile_bne_of_notMem hd
  constructor
  · rw [keyword, keyword, String.toList_append, String.toList_append,
      Text.takeWhile_bne_of_notMem hall, hfront, hlower]
  · intro x
    have hcut : (u ++ d' ++ v ++ ":" ++ x).toList =
        (u.toList ++ d'.toList ++ v.toList) ++ ':' :: x.toList := by simp
    rw [keyword, keyword, hcut, Text.takeWhile_bne_append hall, hfront, hlower]

lemma keywordType_mem (descriptor : Option String) : keywordType descriptor ∈ typesOfKeywords := by
  have htable : ∀ e ∈ keywordTypes, e.2 ∈ typesOfKeywords := by decide
  cases descriptor with
  | none => decide
  | some d =>
    rw [keywordType]
    rcases hlookup : keywordTypes.lookup (keyword d) with _ | type
    · decide
    · obtain ⟨front, back, hrow, -⟩ := List.lookup_eq_some_iff.mp hlookup
      exact htable (keyword d, type) (by rw [hrow]; simp)

/-- **What a keyword stands for** does not depend on the case of its ASCII letters, on white space
of any script around it, nor on parameters after a colon. It is always one of seven types. -/
theorem keywordType_of_written (hd : ':' ∉ d.toList)
    (hcase : asciiLower d'.toList = asciiLower d.toList)
    (hu : ∀ c ∈ u.toList, Text.isBlank c) (hv : ∀ c ∈ v.toList, Text.isBlank c) :
    keywordType (some (u ++ d' ++ v)) = keywordType (some d) ∧
    (∀ x, keywordType (some (u ++ d' ++ v ++ ":" ++ x)) = keywordType (some d)) ∧
    ∀ descriptor, keywordType descriptor ∈ typesOfKeywords := by
  obtain ⟨hbare, hparameters⟩ := keyword_append hd hcase hu hv
  refine ⟨?_, fun x => ?_, keywordType_mem⟩
  · rw [keywordType, keywordType, hbare]
  · rw [keywordType, keywordType, hparameters]

/-- A keyword between an ideographic space and a tabulator, with parameters that have colons. -/
theorem keywordType_of_written_date :
    ':' ∉ "immutable_date".toList ∧
    asciiLower "Immutable_DATE".toList = asciiLower "immutable_date".toList ∧
    (∀ c ∈ "\u3000".toList, Text.isBlank c) ∧ (∀ c ∈ "\t".toList, Text.isBlank c) ∧
    keywordType (some "\u3000Immutable_DATE\t:Y:m") = dateType := by
  have hd : ':' ∉ "immutable_date".toList := by decide
  have hcase : asciiLower "Immutable_DATE".toList = asciiLower "immutable_date".toList := by decide
  have hu : ∀ c ∈ "\u3000".toList, Text.isBlank c := List.all_eq_true.mp (by decide)
  have hv : ∀ c ∈ "\t".toList, Text.isBlank c := List.all_eq_true.mp (by decide)
  have htype : keywordType (some "immutable_date") = dateType := by decide +kernel
  exact ⟨hd, hcase, hu, hv, ((keywordType_of_written hd hcase hu hv).2.1 "Y:m").trans htype⟩

end EloquentEntity.Casts

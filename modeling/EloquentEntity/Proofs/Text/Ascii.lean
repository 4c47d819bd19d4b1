import EloquentEntity.Syntax.Token
import EloquentEntity.Text.Blank
import EloquentEntity.Text.LetterCase
import Mathlib.Tactic.Common

/-!
ASCII letters and digits by their code points, and the lower case of ASCII text.
-/

namespace EloquentEntity

variable {c : Char} {s t : List Char}

lemma isUpper_iff : c.isUpper ↔ 65 ≤ c.toNat ∧ c.toNat ≤ 90 := by
  change decide (65 ≤ c.val ∧ c.val ≤ 90) = true ↔ _
  simp [UInt32.le_iff_toNat_le, ← Char.toNat_val]

lemma isLower_iff : c.isLower ↔ 97 ≤ c.toNat ∧ c.toNat ≤ 122 := by
  change (decide (97 ≤ c.val) && decide (c.val ≤ 122)) = true ↔ _
  simp [UInt32.le_iff_toNat_le, ← Char.toNat_val]

lemma isDigit_iff : c.isDigit ↔ 48 ≤ c.toNat ∧ c.toNat ≤ 57 := by
  change (decide (48 ≤ c.val) && decide (c.val ≤ 57)) = true ↔ _
  simp [UInt32.le_iff_toNat_le, ← Char.toNat_val]

lemma isAlpha_iff : c.isAlpha ↔ c.isUpper ∨ c.isLower := iff_of_eq (Bool.or_eq_true _ _)

lemma isAlphanum_iff : c.isAlphanum ↔ c.isAlpha ∨ c.isDigit := iff_of_eq (Bool.or_eq_true _ _)

lemma toNat_of_isAlpha (h : c.isAlpha) : 65 ≤ c.toNat ∧ c.toNat ≤ 122 := by
  rw [isAlpha_iff, isUpper_iff, isLower_iff] at h
  omega

lemma toNat_of_isAlphanum (h : c.isAlphanum) : 48 ≤ c.toNat ∧ c.toNat ≤ 122 := by
  rw [isAlphanum_iff, isAlpha_iff, isUpper_iff, isLower_iff, isDigit_iff] at h
  omega

lemma toLower_of_not_isUpper (h : ¬c.isUpper) : c.toLower = c :=
  dif_neg fun hrange => h (decide_eq_true hrange)

/-- What is a lower-case letter in lower case is a letter. -/
lemma isAlpha_of_isLower_toLower (h : c.toLower.isLower) : c.isAlpha := by
  rw [isAlpha_iff]
  by_cases hupper : c.isUpper
  · exact .inl hupper
  · rw [toLower_of_not_isUpper hupper] at h
    exact .inr h

namespace Text

open Syntax

/-- Of the ASCII characters behind the space none is white space. -/
lemma isBlank_eq_false (hlow : 32 < c.toNat) (hhigh : c.toNat < 128) : isBlank c = false := by
  simp only [isBlank, Bool.or_eq_false_iff, Bool.and_eq_false_iff, decide_eq_false_iff_not,
    beq_eq_false_iff_ne]
  omega

lemma isBlank_eq_false_of_isAlphanum (h : c.isAlphanum) : isBlank c = false := by
  have := toNat_of_isAlphanum h
  exact isBlank_eq_false (by omega) (by omega)

/-- ASCII text is put into lower case character by character. -/
lemma lower_eq_asciiLower {s : List Char} (h : ∀ c ∈ s, c.toNat < 128) :
    lower s = asciiLower s := by
  have hfrom (before : List Char) : lowerFrom before s = asciiLower s := by
    induction s generalizing before with
    | nil => rfl
    | cons c s ih =>
      obtain ⟨hc, hs⟩ := List.forall_mem_cons.mp h
      have hsigma : (c == 'Σ') = false := by
        rw [beq_eq_false_iff_ne]
        rintro rfl
        exact absurd hc (by decide)
      rw [lowerFrom, hsigma, if_neg (by simp), lowerChar, if_pos hc, ih hs]
      rfl
  exact hfrom []

/-! ### Texts that differ in the case of ASCII letters -/

/-- What is the same for both cases of each ASCII letter. -/
lemma apply_toLower {α : Type} {f : Char → α}
    (h : ∀ n < 26, f (Char.ofNat (65 + n)).toLower = f (Char.ofNat (65 + n))) (c : Char) :
    f c.toLower = f c := by
  by_cases hc : c.isUpper
  · have hrange := isUpper_iff.mp hc
    have hletter := h (c.toNat - 65) (by omega)
    rwa [Nat.add_sub_cancel' hrange.1, Char.ofNat_toNat] at hletter
  · rw [toLower_of_not_isUpper hc]

lemma isBlank_toLower (c : Char) : isBlank c.toLower = isBlank c := apply_toLower (by decide) c

lemma lowerChar_toLower (c : Char) : lowerChar c.toLower = lowerChar c := apply_toLower (by decide) c

lemma isCaseIgnorable_of_isAlpha (h : c.isAlpha) : isCaseIgnorable c = false := by
  have hgap : ∀ r ∈ caseIgnorable, r.2 < 65 ∨ (90 < r.1 ∧ r.2 < 97) ∨ 122 < r.1 := by
    decide +kernel
  rw [isAlpha_iff, isUpper_iff, isLower_iff] at h
  rw [isCaseIgnorable, inRanges, List.any_eq_false]
  intro r hr
  have := hgap r hr
  simp only [Bool.and_eq_true, decide_eq_true_eq]
  omega

lemma isCaseIgnorable_toLower (c : Char) : isCaseIgnorable c.toLower = isCaseIgnorable c := by
  refine apply_toLower (fun n hn => ?_) c
  have hletters : ∀ n < 26, (Char.ofNat (65 + n)).isAlpha ∧ (Char.ofNat (65 + n)).toLower.isAlpha := by
    decide
  rw [isCaseIgnorable_of_isAlpha (hletters n hn).1, isCaseIgnorable_of_isAlpha (hletters n hn).2]

/-- Whether a letter is met does not depend on its case. -/
lemma meetsLetter_asciiLower (s : List Char) : meetsLetter (asciiLower s) = meetsLetter s := by
  have hskip : isCaseIgnorable ∘ Char.toLower = isCaseIgnorable := funext isCaseIgnorable_toLower
  rw [meetsLetter, meetsLetter, asciiLower, List.dropWhile_map, hskip]
  cases s.dropWhile isCaseIgnorable with
  | nil => rfl
  | cons c s =>
    exact apply_toLower (f := fun c => isLowerCase c || isUpperCase c) (by decide +kernel) c

lemma lowerFrom_asciiLower (before s : List Char) :
    lowerFrom (asciiLower before) (asciiLower s) = lowerFrom before s := by
  induction s generalizing before with
  | nil => rfl
  | cons c s ih =>
    have hsigma : (c.toLower == 'Σ') = (c == 'Σ') := apply_toLower (f := (· == 'Σ')) (by decide) c
    have hcons : asciiLower (c :: s) = c.toLower :: asciiLower s := rfl
    have hback : lowerFrom (c.toLower :: asciiLower before) (asciiLower s) =
        lowerFrom (c :: before) s := ih (c :: before)
    rw [hcons, lowerFrom, lowerFrom, hsigma, hback, meetsLetter_asciiLower, meetsLetter_asciiLower,
      lowerChar_toLower]

/-- The lower case of a text does not depend on the case of its ASCII letters. -/
lemma lower_asciiLower (s : List Char) : lower (asciiLower s) = lower s := lowerFrom_asciiLower [] s

lemma lower_congr (h : asciiLower s = asciiLower t) : lower s = lower t := by
  rw [← lower_asciiLower s, h, lower_asciiLower]

end Text

end EloquentEntity

import EloquentEntity.Proofs.Text.Ascii
import EloquentEntity.Text.Integer
import Mathlib.Data.List.Basic
import Mathlib.Data.List.TakeWhile

/-!
Whole numbers that are written in digits alone: just those of decimal digits are read, up to the
limit of their number, and the number in decimal is read as itself.
-/

namespace EloquentEntity.Text

variable {c : Char} {s : List Char}

/-! ### Digits and other characters -/

def blanks : List Nat :=
  List.range' 9 5 ++ List.range' 28 5 ++ [0x85, 0xA0, 0x1680] ++ List.range' 0x2000 11 ++
    [0x2028, 0x2029, 0x202F, 0x205F, 0x3000]

lemma mem_blanks (h : isBlank c) : c.toNat ∈ blanks := by
  simp only [isBlank, Bool.or_eq_true, Bool.and_eq_true, decide_eq_true_eq, beq_iff_eq] at h
  simp only [blanks, List.mem_append, List.mem_range'_1, List.mem_cons, List.not_mem_nil, or_false]
  omega

lemma isDigit_eq_false_of_isBlank (h : isBlank c) : isDigit c = false := by
  have hall : ∀ n ∈ blanks, isDigit (Char.ofNat n) = false := by decide +kernel
  have hc := hall c.toNat (mem_blanks h)
  rwa [Char.ofNat_toNat] at hc

lemma isBlank_of_isNumberBlank (h : isNumberBlank c) : isBlank c := by
  rw [isNumberBlank] at h
  split at h
  · simp only [Bool.or_eq_true, Bool.and_eq_true, decide_eq_true_eq, beq_iff_eq] at h
    rcases h with rfl | h
    · decide
    · simp [isBlank, h]
  · exact h

lemma isNumberBlank_eq_false (h : isDigit c) : isNumberBlank c = false := by
  by_contra hblank
  rw [Bool.not_eq_false] at hblank
  rw [isDigit_eq_false_of_isBlank (isBlank_of_isNumberBlank hblank)] at h
  cases h

lemma isDigit_of_decimal (h : (decimalValue c).isSome) : isDigit c := by
  rw [isDigit, h, Bool.true_or]

/-! ### Digits alone -/

lemma splitSign_of_isDigit (h : ∀ c ∈ s, isDigit c) : splitSign s = (false, s) := by
  rcases s with _ | ⟨c, s⟩
  · rfl
  · have hc := h c (by simp)
    have hminus : c ≠ '-' := fun he => absurd (he ▸ hc) (by decide +kernel)
    have hplus : c ≠ '+' := fun he => absurd (he ▸ hc) (by decide +kernel)
    exact splitSign.eq_3 _ (fun t ht => hminus (List.cons.inj ht).1)
      fun t ht => hplus (List.cons.inj ht).1

lemma dropWhile_isNumberBlank (h : ∀ c ∈ s, isDigit c) : s.dropWhile isNumberBlank = s := by
  rcases s with _ | ⟨c, s⟩
  · rfl
  · exact List.dropWhile_cons_of_neg (by simp [isNumberBlank_eq_false (h c (by simp))])

lemma digitValues_of_decimal (h : ∀ c ∈ s, (decimalValue c).isSome) (hne : s ≠ []) :
    digitValues s = some (s.filterMap decimalValue) := by
  induction s with
  | nil => exact absurd rfl hne
  | cons c s ih =>
    obtain ⟨hc, hs⟩ := List.forall_mem_cons.mp h
    obtain ⟨d, hd⟩ := Option.isSome_iff_exists.mp hc
    rcases s with _ | ⟨e, s⟩
    · rw [digitValues.eq_3 c d hd, List.filterMap_cons_some hd, List.filterMap_nil]
    · have hnext (t : List Char) : e :: s ≠ '_' :: t := by
        intro he
        have hmark := hs '_' (by simp [he])
        exact absurd hmark (by decide)
      rw [digitValues.eq_5 c _ d hd (by simp) hnext, ih hs (by simp), List.filterMap_cons_some hd,
        Option.map_some]

/-- What a number may have between blanks and a sign. -/
def isNumberPart (c : Char) : Bool := (decimalValue c).isSome || c == '_'

lemma readInteger_of_decimal (h : ∀ c ∈ s, (decimalValue c).isSome) (hne : s ≠ []) :
    readInteger s =
      if s.length > digitLimit then .error (.tooLong s.length)
      else .ok (ofDigits (s.filterMap decimalValue)) := by
  have hdigit : ∀ c ∈ s, isDigit c := fun c hc => isDigit_of_decimal (h c hc)
  have hpart : ∀ c ∈ s, isNumberPart c := fun c hc => by rw [isNumberPart, h c hc, Bool.true_or]
  have hlength : (s.filterMap decimalValue).length = s.length := by
    rw [List.length_filterMap_eq_countP, List.countP_eq_length]
    exact h
  have htake : s.takeWhile isNumberPart = s := List.takeWhile_eq_self_iff.mpr hpart
  have hdrop : s.dropWhile isNumberPart = [] := List.dropWhile_eq_nil_iff.mpr hpart
  unfold isNumberPart at htake hdrop
  simp only [readInteger, dropWhile_isNumberBlank hdigit, splitSign_of_isDigit hdigit, htake, hdrop,
    digitValues_of_decimal h hne, hlength]
  rfl

/-- A digit that stands for no decimal place makes a number of digits alone unreadable. -/
lemma decimal_of_readInteger {n : Int} (h : ∀ c ∈ s, isDigit c) (hn : readInteger s = .ok n) :
    ∀ c ∈ s, (decimalValue c).isSome := by
  have hblank : (s.dropWhile isNumberPart).all isNumberBlank := by
    simp only [readInteger, dropWhile_isNumberBlank h, splitSign_of_isDigit h] at hn
    split at hn
    · cases hn
    · split at hn
      · cases hn
      · split at hn
        · next hrest => exact hrest
        · cases hn
  have hrest : s.dropWhile isNumberPart = [] := by
    refine List.eq_nil_iff_forall_not_mem.mpr fun c hc => ?_
    have hdigit := h c ((List.dropWhile_suffix _).subset hc)
    have := List.all_eq_true.mp hblank c hc
    rw [isNumberBlank_eq_false hdigit] at this
    cases this
  intro c hc
  have hpart := List.dropWhile_eq_nil_iff.mp hrest c hc
  rw [isNumberPart, Bool.or_eq_true, beq_iff_eq] at hpart
  exact hpart.resolve_right fun he => absurd (he ▸ h c hc) (by decide +kernel)

/-- Digits alone are read as a number exactly if they are decimal and not too many. -/
theorem readInteger_of_isDigit (h : ∀ c ∈ s, isDigit c) (hne : s ≠ []) :
    (∃ n, readInteger s = .ok n) ↔
      (∀ c ∈ s, (decimalValue c).isSome) ∧ s.length ≤ digitLimit := by
  constructor
  · rintro ⟨n, hn⟩
    have hdecimal := decimal_of_readInteger h hn
    rw [readInteger_of_decimal hdecimal hne] at hn
    split at hn
    · cases hn
    · next hlength => exact ⟨hdecimal, Nat.le_of_not_lt hlength⟩
  · rintro ⟨hdecimal, hlength⟩
    exact ⟨_, (readInteger_of_decimal hdecimal hne).trans (if_neg (Nat.not_lt.mpr hlength))⟩

/-! ### ASCII digits -/

lemma digit_lt (h : c.isDigit) : c.toNat - '0'.toNat < 10 := by
  have hzero : '0'.toNat = 48 := rfl
  have := isDigit_iff.mp h
  omega

lemma decimalValue_of_isDigit (h : c.isDigit) : decimalValue c = some (c.toNat - '0'.toNat) := by
  have hascii : c.toNat < 128 := Nat.lt_of_le_of_lt (isDigit_iff.mp h).2 (by decide)
  rw [decimalValue, if_pos hascii, if_pos h]

lemma filterMap_decimalValue (h : ∀ c ∈ s, c.isDigit) :
    s.filterMap decimalValue = s.map fun c => c.toNat - '0'.toNat := by
  rw [← List.filterMap_eq_map]
  exact List.filterMap_congr fun c hc => decimalValue_of_isDigit (h c hc)

lemma readInteger_of_ascii (h : ∀ c ∈ s, c.isDigit) (hne : s ≠ [])
    (hlength : s.length ≤ digitLimit) :
    readInteger s = .ok (Nat.ofDigitChars 10 s 0) := by
  have hdecimal : ∀ c ∈ s, (decimalValue c).isSome := fun c hc => by
    rw [decimalValue_of_isDigit (h c hc), Option.isSome_some]
  rw [readInteger_of_decimal hdecimal hne, if_neg (Nat.not_lt.mpr hlength),
    filterMap_decimalValue h, ofDigits, List.foldl_map]
  rfl

lemma length_toDigits_le {n d : Nat} (hd : d < 10) :
    (Nat.toDigits 10 (10 * n + d)).length ≤ (Nat.toDigits 10 n).length + 1 := by
  have hlast : (Nat.toDigits 10 d).length = 1 := by
    rw [Nat.toDigits_of_lt_base hd, List.length_singleton]
  rcases Nat.eq_zero_or_pos n with rfl | hn
  · rw [Nat.mul_zero, Nat.zero_add, hlast]
    exact Nat.le_add_left 1 _
  · rw [← Nat.toDigits_append_toDigits (by decide) hn hd, List.length_append, hlast]

lemma length_toDigits_ofDigitChars_le (h : ∀ c ∈ s, c.isDigit) (n : Nat) :
    (Nat.toDigits 10 (Nat.ofDigitChars 10 s n)).length ≤ (Nat.toDigits 10 n).length + s.length := by
  induction s generalizing n with
  | nil => rw [Nat.ofDigitChars_nil, List.length_nil, Nat.add_zero]
  | cons c s ih =>
    obtain ⟨hc, hs⟩ := List.forall_mem_cons.mp h
    have hnext := length_toDigits_le (n := n) (digit_lt hc)
    rw [Nat.ofDigitChars_cons, List.length_cons]
    exact (ih hs _).trans (by omega)

/-- Digits stand for a number that has no more of them. -/
lemma length_toDigits_ofDigitChars (h : ∀ c ∈ s, c.isDigit) (hne : s ≠ []) :
    (Nat.toDigits 10 (Nat.ofDigitChars 10 s 0)).length ≤ s.length := by
  obtain ⟨c, s, rfl⟩ := List.exists_cons_of_ne_nil hne
  obtain ⟨hc, hs⟩ := List.forall_mem_cons.mp h
  have hfirst := length_toDigits_ofDigitChars_le hs (c.toNat - '0'.toNat)
  rw [Nat.toDigits_of_lt_base (digit_lt hc), List.length_singleton] at hfirst
  rw [Nat.ofDigitChars_cons, Nat.mul_zero, Nat.zero_add, List.length_cons]
  omega

lemma readInteger_toDigits {n : Nat} (h : (Nat.toDigits 10 n).length ≤ digitLimit) :
    readInteger (Nat.toDigits 10 n) = .ok n := by
  rw [readInteger_of_ascii (fun c => Nat.isDigit_of_mem_toDigits (by decide) (by decide))
    Nat.toDigits_ne_nil h, Nat.ofDigitChars_ten_toDigits]

end EloquentEntity.Text

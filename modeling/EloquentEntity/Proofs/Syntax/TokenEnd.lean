import EloquentEntity.Proofs.Syntax.Lexer
import Mathlib.Data.List.Induction

/-!
Where tokens end.

What is scanned off the front of a text does not depend on what stands behind it, as long as that
starts with white space or a slash, which no token of several characters goes on with. So each of
the lexer's lengths, if it stays within `p` on some text `p ++ x`, is the same on `p ++ y`.
-/

namespace EloquentEntity.Syntax

variable {p x y s : List Char} {c : Char} {modes : List Mode} {n : Nat}

/-! ### Where no token goes on -/

def Stops : List Char → Prop
  | [] => False
  | c :: _ => isSpace c = true ∨ c = '/'

lemma toNat_of_isSpace (h : isSpace c = true) :
    c.toNat = 32 ∨ (9 ≤ c.toNat ∧ c.toNat ≤ 13) ∨ 160 ≤ c.toNat := by
  simp only [isSpace, Bool.or_eq_true, Bool.and_eq_true, decide_eq_true_eq, beq_iff_eq] at h
  obtain ((((rfl | h) | rfl) | rfl) | rfl) | rfl := h
  · exact .inl rfl
  · exact .inr (.inl h)
  all_goals exact .inr (.inr (by decide))

lemma isWordPart_of_isSpace (h : isSpace c = true) : isWordPart c = false := by
  rw [Bool.eq_false_iff, isWordPart, Ne, Bool.or_eq_true]
  rintro (hstart | hdigit)
  · simp [isSpace_of_isWordStart hstart] at h
  · have hspace := toNat_of_isSpace h
    have hdigit := isDigit_iff.mp hdigit
    omega

lemma isWordPart_of_isDigit (h : c.isDigit = true) : isWordPart c = true := by
  simp [isWordPart, h]

lemma isWordPart_of_isAlpha (h : c.isAlpha = true) : isWordPart c = true := by
  simp [isWordPart, isWordStart, h]

namespace Stops

lemma exists_cons (h : Stops y) : ∃ c s, y = c :: s := by
  cases y with
  | nil => cases h
  | cons c s => exact ⟨c, s, rfl⟩

lemma isWordPart_eq_false (h : Stops (c :: s)) : isWordPart c = false := by
  obtain hc | rfl := h
  · exact isWordPart_of_isSpace hc
  · decide

/-- Any other character is not the one that is next. -/
lemma ne (h : Stops (c :: s)) {d : Char} (hspace : isSpace d = false) (hslash : d ≠ '/') :
    c ≠ d := by
  rintro rfl
  obtain hc | rfl := h
  · rw [hspace] at hc
    cases hc
  · exact hslash rfl

lemma eq_false (h : Stops (c :: s)) {q : Char → Bool} (hq : ∀ c, q c = true → isWordPart c = true) :
    q c = false := by
  rw [Bool.eq_false_iff]
  intro hc
  have hword := h.isWordPart_eq_false
  rw [hq c hc] at hword
  cases hword

end Stops

/-! ### Words -/

/-- As far as a property goes, if it goes no further than `p`. -/
lemma takeWhile_stops {q : Char → Bool} (hq : ∀ c s, y = c :: s → q c = false)
    (h : ((p ++ x).takeWhile q).length ≤ p.length) :
    (p ++ y).takeWhile q = (p ++ x).takeWhile q := by
  induction p with
  | nil =>
    rw [List.nil_append] at h ⊢
    rw [List.nil_append, List.length_eq_zero_iff.mp (Nat.le_zero.mp h)]
    cases y with
    | nil => rfl
    | cons c s => rw [List.takeWhile_cons, hq c s rfl, if_neg (by simp)]
  | cons c p ih =>
    rw [List.cons_append, List.takeWhile_cons] at h
    rw [List.cons_append, List.cons_append, List.takeWhile_cons, List.takeWhile_cons]
    split at h
    · next hc => rw [if_pos hc, if_pos hc, ih (by simpa using h)]
    · next hc => rw [if_neg hc, if_neg hc]

/-! ### Numbers -/

/-- Where the length stays within the first part of a text, it does not depend on the second, as
long as this starts with white space or a slash. -/
def Settled (f : List Char → Nat) : Prop :=
  ∀ {p x y}, Stops y → f (p ++ x) ≤ p.length → f (p ++ y) = f (p ++ x)

lemma Settled.drop {f : List Char → Nat} (hf : Settled f) (hy : Stops y) {k : Nat}
    (hk : k ≤ p.length) (h : f ((p ++ x).drop k) + k ≤ p.length) :
    f ((p ++ y).drop k) = f ((p ++ x).drop k) := by
  rw [List.drop_append_of_le_length hk] at h
  rw [List.drop_append_of_le_length hk, List.drop_append_of_le_length hk]
  exact hf hy (by rw [List.length_drop]; omega)

section Digits

variable {q : Char → Bool}

lemma digitsLength_of_eq_false (hc : q c = false) (s : List Char) :
    digitsLength q (c :: s) = 0 := by
  unfold digitsLength
  split <;> simp_all

lemma Stops.digitsLength_eq (hy : Stops y) : digitsLength Char.isDigit y = 0 := by
  obtain ⟨d, s, rfl⟩ := hy.exists_cons
  exact digitsLength_of_eq_false (hy.eq_false fun _ => isWordPart_of_isDigit) s

lemma digitsLength_cons (hc : q c = true) {d : Char} (hd : d ≠ '_') (s : List Char) :
    digitsLength q (c :: d :: s) = digitsLength q (d :: s) + 1 := by
  rw [digitsLength.eq_5 _ _ _ (by simp) (by simpa using hd), if_pos hc]

lemma digitsLength_parted (hc : q c = true) (s : List Char) : digitsLength q (c :: '_' :: s) =
    bif s.head?.any q then digitsLength q s + 2 else 1 := by
  cases s with
  | nil => simp [digitsLength, hc]
  | cons d s => cases hd : q d <;> simp [digitsLength, hc, hd]

lemma digitsLength_pos (hc : q c = true) (s : List Char) : 0 < digitsLength q (c :: s) := by
  rcases s with _ | ⟨d, s⟩
  · simp [digitsLength, hc]
  · by_cases hd : d = '_'
    · rw [hd, digitsLength_parted hc]
      cases s.head?.any q <;> simp
    · rw [digitsLength_cons hc hd]
      omega

lemma settled_digitsLength (hq : ∀ c, q c = true → isWordPart c = true) :
    Settled (digitsLength q) := by
  intro p x y hy h
  obtain ⟨d, s, rfl⟩ := hy.exists_cons
  have hd : q d = false := hy.eq_false hq
  have hmark : d ≠ '_' := hy.ne (by decide) (by decide)
  induction p using List.twoStepInduction with
  | nil =>
    rw [List.nil_append] at h ⊢
    rw [digitsLength_of_eq_false hd, List.nil_append]
    exact (Nat.le_zero.mp h).symm
  | singleton c =>
    rw [List.singleton_append] at h ⊢
    rw [List.singleton_append]
    rcases hc : q c with _ | _
    · rw [digitsLength_of_eq_false hc, digitsLength_of_eq_false hc]
    · have hpos := digitsLength_pos hc x
      rw [digitsLength_cons hc hmark, digitsLength_of_eq_false hd]
      exact Nat.le_antisymm hpos h
  | cons_cons c e p ih ih' =>
    simp only [List.cons_append] at h ih' ⊢
    rcases hc : q c with _ | _
    · rw [digitsLength_of_eq_false hc, digitsLength_of_eq_false hc]
    -- An underscore counts only with a digit behind it, so two characters are looked at.
    by_cases he : e = '_'
    · subst he
      rw [digitsLength_parted hc] at h ⊢
      rw [digitsLength_parted hc]
      cases p with
      | nil =>
        rw [List.nil_append] at h ⊢
        rw [List.nil_append, List.head?_cons, Option.any_some, hd]
        -- The underscore ends `p`: with a digit behind it the length would go beyond.
        rcases x with _ | ⟨f, x⟩
        · rfl
        · rw [List.head?_cons, Option.any_some] at h ⊢
          cases hf : q f with
          | false => rfl
          | true =>
            have hpos := digitsLength_pos hf x
            simp [hf] at h
            omega
      | cons f p =>
        simp only [List.cons_append, List.head?_cons, Option.any_some] at h ih ⊢
        cases hf : q f with
        | false => rfl
        | true =>
          rw [hf, cond_true] at h
          rw [cond_true, cond_true, ih (by simpa using h)]
    · rw [digitsLength_cons hc he] at h ⊢
      rw [digitsLength_cons hc he, ih' e (by simpa using h)]

end Digits

lemma settled_decimalDigits : Settled (digitsLength Char.isDigit) :=
  settled_digitsLength fun _ => isWordPart_of_isDigit

lemma exponentLength_of_not (h : (c == 'e' || c == 'E') = false) (s : List Char) :
    exponentLength (c :: s) = 0 := by
  unfold exponentLength
  exact if_neg (by simp [h])

def signLength : List Char → Nat
  | '+' :: _ | '-' :: _ => 1
  | _ => 0

lemma signLength_of_stops (h : Stops (c :: s)) : signLength (c :: s) = 0 := by
  have hplus : c ≠ '+' := h.ne (by decide) (by decide)
  have hminus : c ≠ '-' := h.ne (by decide) (by decide)
  unfold signLength
  split <;> simp_all

lemma signLength_cons_le (c : Char) (s s' : List Char) :
    signLength (c :: s) = signLength (c :: s') ∧ signLength (c :: s') ≤ 1 := by
  by_cases hplus : c = '+'
  · simp [hplus, signLength]
  · by_cases hminus : c = '-' <;> simp [signLength, hplus, hminus]

lemma exponentLength_cons (h : (c == 'e' || c == 'E') = true) (s : List Char) :
    exponentLength (c :: s) =
      if digitsLength Char.isDigit (s.drop (signLength s)) = 0 then 0
      else digitsLength Char.isDigit (s.drop (signLength s)) + signLength s + 1 := by
  fun_cases signLength s with
  | case1 s | case2 s =>
    rw [exponentLength, if_pos h, List.drop_succ_cons, List.drop_zero]
    cases digitsLength Char.isDigit s <;> rfl
  | case3 =>
    rw [exponentLength, if_pos h, List.drop_zero]
    · cases digitsLength Char.isDigit s <;> rfl
    all_goals assumption

lemma Stops.exponentLength_eq (h : Stops y) : exponentLength y = 0 := by
  obtain ⟨d, s, rfl⟩ := h.exists_cons
  refine exponentLength_of_not ?_ s
  simpa using ⟨h.ne (by decide) (by decide), h.ne (by decide) (by decide)⟩

lemma settled_exponentLength : Settled exponentLength := by
  intro p x y hy h
  rcases p with _ | ⟨e, p⟩
  · rw [List.nil_append] at h ⊢
    rw [List.nil_append, hy.exponentLength_eq]
    exact (Nat.le_zero.mp h).symm
  obtain ⟨d, s, rfl⟩ := hy.exists_cons
  simp only [List.cons_append] at h ⊢
  cases he : (e == 'e' || e == 'E') with
  | false => rw [exponentLength_of_not he, exponentLength_of_not he]
  | true =>
    rw [exponentLength_cons he] at h ⊢
    rw [exponentLength_cons he]
    rcases p with _ | ⟨f, p⟩
    · -- A sign or digit in `x` would take the length beyond the letter.
      have hd : d.isDigit = false := hy.eq_false fun _ => isWordPart_of_isDigit
      have hx : digitsLength Char.isDigit (x.drop (signLength x)) = 0 := by
        by_contra hne
        rw [List.nil_append, if_neg hne, List.length_singleton] at h
        omega
      rw [List.nil_append, List.nil_append, signLength_of_stops hy, List.drop_zero,
        digitsLength_of_eq_false hd, if_pos rfl, if_pos hx]
    · obtain ⟨hsign, hle⟩ := signLength_cons_le f (p ++ d :: s) (p ++ x)
      simp only [List.cons_append] at h ⊢
      rw [hsign]
      generalize signLength (f :: (p ++ x)) = k at h hle ⊢
      have hk : k ≤ (f :: p).length := by
        rw [List.length_cons]
        omega
      have hdigits := settled_decimalDigits.drop (x := x) hy hk
      simp only [List.cons_append, List.length_cons] at h hdigits
      rw [hdigits (by split at h <;> omega)]

def fractionLength : List Char → Nat
  | '.' :: s => digitsLength Char.isDigit s + 1
  | _ => 0

lemma fractionLength_of_ne (h : c ≠ '.') (s : List Char) : fractionLength (c :: s) = 0 := by
  simp [fractionLength, h]

lemma Stops.fractionLength_eq (h : Stops y) : fractionLength y = 0 := by
  obtain ⟨d, s, rfl⟩ := h.exists_cons
  exact fractionLength_of_ne (h.ne (by decide) (by decide)) s

lemma settled_fractionLength : Settled fractionLength := by
  intro p x y hy h
  rcases p with _ | ⟨c, p⟩
  · rw [List.nil_append] at h ⊢
    rw [List.nil_append, hy.fractionLength_eq]
    exact (Nat.le_zero.mp h).symm
  simp only [List.cons_append] at h ⊢
  by_cases hc : c = '.'
  · subst hc
    rw [fractionLength] at h
    rw [fractionLength, fractionLength, settled_decimalDigits hy (by simpa using h)]
  · rw [fractionLength_of_ne hc, fractionLength_of_ne hc]

lemma decimalLength_eq (s : List Char) :
    let whole := digitsLength Char.isDigit s
    let mantissa := whole + fractionLength (s.drop whole)
    decimalLength s = if whole + (fractionLength (s.drop whole) - 1) = 0 then 0
      else mantissa + exponentLength (s.drop mantissa) := by
  dsimp only
  rw [decimalLength]
  generalize s.drop (digitsLength Char.isDigit s) = r
  fun_cases fractionLength r with
  | case1 r =>
    have hsum : digitsLength Char.isDigit s + 1 + digitsLength Char.isDigit r =
        digitsLength Char.isDigit s + (digitsLength Char.isDigit r + 1) := by omega
    rw [Nat.add_sub_cancel, ← hsum]
    rfl
  | case2 => simp [*]

lemma settled_decimalLength : Settled decimalLength := by
  intro p x y hy h
  obtain ⟨d, s, rfl⟩ := hy.exists_cons
  rcases p with _ | ⟨c, p⟩
  · rw [List.nil_append] at h ⊢
    rw [List.nil_append, Nat.le_zero.mp h, decimalLength_eq, hy.digitsLength_eq, List.drop_zero,
      fractionLength_of_ne (hy.ne (by decide) (by decide)), if_pos rfl]
  rw [decimalLength_eq] at h ⊢
  rw [decimalLength_eq]
  -- Whole part, fraction and exponent stay within `p` one after the other.
  have hdigits : digitsLength Char.isDigit (c :: p ++ d :: s) =
      digitsLength Char.isDigit (c :: p ++ x) := by
    refine settled_decimalDigits hy ?_
    split at h <;> omega
  rw [hdigits]
  generalize digitsLength Char.isDigit (c :: p ++ x) = n at h ⊢
  have hlength : 0 < (c :: p).length := Nat.succ_pos _
  have hfraction : fractionLength ((c :: p ++ d :: s).drop n) =
      fractionLength ((c :: p ++ x).drop n) := by
    refine settled_fractionLength.drop hy ?_ ?_ <;> split at h <;> omega
  rw [hfraction]
  generalize fractionLength ((c :: p ++ x).drop n) = m at h ⊢
  split
  · rfl
  · next hne =>
    rw [if_neg hne] at h
    rw [settled_exponentLength.drop (x := x) hy (by omega) (by omega)]

lemma wholeLength_of_ne (h : c ≠ '0') (s : List Char) :
    wholeLength (c :: s) = digitsLength Char.isDigit (c :: s) := by
  rw [wholeLength] <;> simp [h]

/-- The length after `0x` or `0b`: without digits the zero stands alone. -/
def radixLength (q : Char → Bool) (s : List Char) : Nat :=
  match digitsLength q s with
  | 0 => 1
  | n => n + 2

lemma settled_radixLength {q : Char → Bool} (hq : ∀ c, q c = true → isWordPart c = true)
    (hy : Stops y) (h : radixLength q (p ++ x) ≤ p.length + 2) :
    radixLength q (p ++ y) = radixLength q (p ++ x) := by
  rw [radixLength, radixLength, settled_digitsLength hq hy]
  rw [radixLength] at h
  split at h <;> omega

lemma isWordPart_of_isHexDigit (h : isHexDigit c = true) : isWordPart c = true := by
  simp only [isHexDigit, Bool.or_eq_true, Bool.and_eq_true, decide_eq_true_eq, Char.le_def,
    UInt32.le_iff_toNat_le] at h
  obtain (hdigit | ⟨hlow, hhigh⟩) | ⟨hlow, hhigh⟩ := h
  · exact isWordPart_of_isDigit hdigit
  all_goals
    refine isWordPart_of_isAlpha (isAlpha_iff.mpr ?_)
    rw [isUpper_iff, isLower_iff]
    simp at hlow hhigh
    omega

lemma isWordPart_of_isOctalDigit (h : isOctalDigit c = true) : isWordPart c = true := by
  refine isWordPart_of_isHexDigit ?_
  simp only [isOctalDigit, Bool.and_eq_true, decide_eq_true_eq, Char.le_def,
    UInt32.le_iff_toNat_le] at h
  simp only [isHexDigit, Bool.or_eq_true]
  refine .inl (.inl (isDigit_iff.mpr ?_))
  simp at h
  omega

lemma isWordPart_of_isBinaryDigit (h : isBinaryDigit c = true) : isWordPart c = true := by
  obtain rfl | rfl : c = '0' ∨ c = '1' := by simpa [isBinaryDigit] using h
  · decide
  · decide

lemma wholeLength_zero (c : Char) (s : List Char) : wholeLength ('0' :: c :: s) =
    if c = 'x' ∨ c = 'X' then radixLength isHexDigit s
    else if c = 'b' ∨ c = 'B' then radixLength isBinaryDigit s
    else if c = 'o' ∨ c = 'O' then digitsLength isOctalDigit s + 2
    else digitsLength isOctalDigit ('0' :: c :: s) := by
  split
  · next hc => rcases hc with rfl | rfl <;> rfl
  split
  · next hc => rcases hc with rfl | rfl <;> rfl
  split
  · next hc => rcases hc with rfl | rfl <;> rfl
  · rw [wholeLength] <;> simp_all

lemma wholeLength_zero_pos (s : List Char) : 0 < wholeLength ('0' :: s) := by
  have hradix (q : Char → Bool) (s : List Char) : 0 < radixLength q s := by
    rw [radixLength]
    split <;> omega
  rcases s with _ | ⟨c, s⟩
  · decide
  · rw [wholeLength_zero]
    split_ifs
    · exact hradix _ _
    · exact hradix _ _
    · omega
    · exact digitsLength_pos (by decide) _

lemma settled_wholeLength : Settled wholeLength := by
  intro p x y hy h
  obtain ⟨d, s, rfl⟩ := hy.exists_cons
  have hne {c : Char} (hspace : isSpace c = false) (hslash : c ≠ '/') : d ≠ c := hy.ne hspace hslash
  rcases p with _ | ⟨c, p⟩
  · rw [List.nil_append] at h ⊢
    rw [List.nil_append, Nat.le_zero.mp h, wholeLength_of_ne (hne (by decide) (by decide)),
      hy.digitsLength_eq]
  by_cases hc : c = '0'
  · subst hc
    rcases p with _ | ⟨e, p⟩
    · have hoctal : isOctalDigit d = false := hy.eq_false fun _ => isWordPart_of_isOctalDigit
      have hx := wholeLength_zero_pos x
      have hd : wholeLength ('0' :: d :: s) = 1 := by
        rw [wholeLength_zero, if_neg, if_neg, if_neg,
          digitsLength_cons (by decide) (hne (by decide) (by decide)),
          digitsLength_of_eq_false hoctal]
        all_goals exact not_or.mpr ⟨hne (by decide) (by decide), hne (by decide) (by decide)⟩
      simp only [List.cons_append, List.nil_append, List.length_cons, List.length_nil] at h ⊢
      rw [hd]
      omega
    · simp only [List.cons_append, List.length_cons] at h ⊢
      rw [wholeLength_zero] at h ⊢
      rw [wholeLength_zero]
      split_ifs at h ⊢
      · exact settled_radixLength (fun _ => isWordPart_of_isHexDigit) hy h
      · exact settled_radixLength (fun _ => isWordPart_of_isBinaryDigit) hy h
      · have hle : digitsLength isOctalDigit (p ++ x) ≤ p.length := by omega
        rw [settled_digitsLength (fun _ => isWordPart_of_isOctalDigit) hy hle]
      · exact settled_digitsLength (fun _ => isWordPart_of_isOctalDigit) (p := '0' :: e :: p) hy h
  · simp only [List.cons_append] at h ⊢
    rw [wholeLength_of_ne hc] at h ⊢
    rw [wholeLength_of_ne hc]
    exact settled_decimalDigits (p := c :: p) hy h

/-- Digits that go beyond `p` in one text end with it, or before its last character, in another. -/
lemma drop_digitsLength {q : Char → Bool} (hq : ∀ c, q c = true → isWordPart c = true)
    (hy : Stops y) (h : p.length < digitsLength q (p ++ x)) :
    (p ++ y).drop (digitsLength q (p ++ y)) = y ∨
      (p ++ y).drop (digitsLength q (p ++ y)) = '_' :: y := by
  obtain ⟨d, s, rfl⟩ := hy.exists_cons
  have hd : q d = false := hy.eq_false hq
  have hmark : d ≠ '_' := hy.ne (by decide) (by decide)
  have hc {c : Char} {s : List Char} {n : Nat} (h : n < digitsLength q (c :: s)) : q c = true := by
    by_contra hc
    rw [digitsLength_of_eq_false (by simpa using hc)] at h
    omega
  induction p using List.twoStepInduction with
  | nil => exact .inl (by rw [List.nil_append, digitsLength_of_eq_false hd, List.drop_zero])
  | singleton c =>
    have hc := hc h
    rw [List.singleton_append, digitsLength_cons hc hmark, digitsLength_of_eq_false hd]
    exact .inl rfl
  | cons_cons c e p ih ih' =>
    simp only [List.cons_append, List.length_cons] at h ih' ⊢
    have hfirst := hc h
    by_cases he : e = '_'
    · subst he
      rw [digitsLength_parted hfirst] at h ⊢
      rcases p with _ | ⟨f, p⟩
      · rw [List.nil_append, List.head?_cons, Option.any_some, hd]
        exact .inr rfl
      · simp only [List.cons_append, List.head?_cons, Option.any_some, List.length_cons] at h ih ⊢
        cases hf : q f with
        | false =>
          rw [hf, cond_false] at h
          omega
        | true =>
          rw [hf, cond_true] at h
          exact ih (by omega)
    · rw [digitsLength_cons hfirst he] at h ⊢
      exact ih' e (by omega)

lemma settled_numberLength : Settled numberLength := by
  intro p x y hy h
  rw [numberLength] at h ⊢
  rw [numberLength]
  split at h
  · next hx =>
    have hdigits : digitsLength Char.isDigit (p ++ x) ≤ p.length := by omega
    have hdecimal : decimalLength (p ++ x) ≤ p.length := by omega
    have hwhole : wholeLength (p ++ x) ≤ p.length := by omega
    rw [settled_decimalDigits hy hdigits, settled_decimalLength hy hdecimal,
      settled_wholeLength hy hwhole]
  · next hx =>
    -- A number without point and exponent; none of the two appears when it is cut.
    have hle : decimalLength (p ++ y) ≤ digitsLength Char.isDigit (p ++ y) := by
      by_cases hdigits : digitsLength Char.isDigit (p ++ x) ≤ p.length
      · have hdecimal : decimalLength (p ++ x) ≤ p.length := by omega
        rw [settled_decimalDigits hy hdigits, settled_decimalLength hy hdecimal]
        omega
      · have hrest :=
          drop_digitsLength (fun _ => isWordPart_of_isDigit) hy (Nat.lt_of_not_le hdigits)
        have hnone {f : List Char → Nat} (hf : f y = 0) (hmark : f ('_' :: y) = 0) :
            f ((p ++ y).drop (digitsLength Char.isDigit (p ++ y))) = 0 := by
          rcases hrest with hrest | hrest <;> rw [hrest] <;> assumption
        have hfraction := hnone hy.fractionLength_eq (fractionLength_of_ne (by decide) y)
        have hexponent := hnone hy.exponentLength_eq (exponentLength_of_not (by decide) y)
        rw [decimalLength_eq, hfraction]
        split
        · omega
        · rw [Nat.add_zero, hexponent, Nat.add_zero]
    rw [if_neg (by omega), if_neg hx, settled_wholeLength hy h]

/-! ### Symbols -/

lemma isPrefixOf_append (op p x : List Char) (h : op.length ≤ p.length) :
    op.isPrefixOf (p ++ x) = op.isPrefixOf p := by
  rw [Bool.eq_iff_iff, List.isPrefixOf_iff_prefix, List.isPrefixOf_iff_prefix]
  exact ⟨fun hop => List.prefix_of_prefix_length_le hop (List.prefix_append p x) h,
    fun hop => hop.trans (List.prefix_append p x)⟩

/-- No symbol goes on with white space or a slash. -/
lemma isPrefixOf_stops {op : List Char} (hop : op ∈ symbols) (hp : p ≠ []) (hy : Stops y) :
    op.isPrefixOf (p ++ y) = op.isPrefixOf p := by
  by_cases hlength : op.length ≤ p.length
  · exact isPrefixOf_append op p y hlength
  have hfree : symbols.all (fun op => op.tail.all fun c => !isSpace c && c != '/') = true := by
    decide
  have hnone : ¬ op <+: p ++ y := by
    intro h
    obtain ⟨r, hr⟩ := List.prefix_of_prefix_length_le (List.prefix_append p y) h (by omega)
    obtain ⟨d, s, rfl⟩ := hy.exists_cons
    rw [← hr, List.prefix_append_right_inj] at h
    rcases r with _ | ⟨e, r⟩
    · rw [← hr, List.append_nil] at hlength
      exact hlength le_rfl
    obtain rfl : e = d := (List.cons_prefix_cons.mp h).1
    have htail : e ∈ op.tail := by
      rw [← hr, List.tail_append_of_ne_nil hp]
      simp
    have := List.all_eq_true.mp (List.all_eq_true.mp hfree op hop) e htail
    simp only [Bool.and_eq_true, Bool.not_eq_true', bne_iff_ne] at this
    obtain hspace | hslash := hy
    · rw [this.1] at hspace
      cases hspace
    · exact this.2 hslash
  have hnone' : ¬ op <+: p := fun h => hnone (h.trans (List.prefix_append p y))
  rw [← List.isPrefixOf_iff_prefix, Bool.not_eq_true] at hnone hnone'
  rw [hnone, hnone']

lemma find?_isPrefixOf {ops : List (List Char)}
    (h : ∀ op ∈ ops.find? (·.isPrefixOf (p ++ x)), op.length ≤ p.length) :
    ops.find? (·.isPrefixOf (p ++ x)) = ops.find? (·.isPrefixOf p) := by
  induction ops with
  | nil => rfl
  | cons op ops ih =>
    rw [List.find?_cons] at h
    rw [List.find?_cons, List.find?_cons]
    split at h
    · next hop => rw [← isPrefixOf_append op p x (h op rfl), hop]
    · next hop =>
      have hnone : op.isPrefixOf p = false := by
        rw [Bool.eq_false_iff, Ne, List.isPrefixOf_iff_prefix] at hop ⊢
        exact fun hpre => hop (hpre.trans (List.prefix_append p x))
      rw [hnone, ih h]

lemma find?_symbols_stops (hp : p ≠ []) (hy : Stops y) :
    symbols.find? (·.isPrefixOf (p ++ y)) = symbols.find? (·.isPrefixOf p) := by
  rw [← List.head?_filter, ← List.head?_filter,
    List.filter_congr fun _ hop => isPrefixOf_stops hop hp hy]

def scanSingle (modes : List Mode) : Char → Scan
  | '\x7b' => ⟨.symbol, 1, .block :: modes⟩
  | '\x7d' => ⟨.symbol, 1, if modes.head? = some .block then modes.tail else modes⟩
  | ']' => ⟨.symbol, 1, if modes.head? = some .index then modes.tail else modes⟩
  | c => ⟨if singleSymbols.contains c then .symbol else .unknown, 1, modes⟩

lemma scanSymbol_some {op : List Char} (h : symbols.find? (·.isPrefixOf s) = some op) :
    scanSymbol modes s = ⟨.symbol, op.length, modes⟩ := by
  rw [scanSymbol.eq_def, h]

lemma scanSymbol_none (h : symbols.find? (·.isPrefixOf (c :: s)) = none) :
    scanSymbol modes (c :: s) =
      if c = '/' ∧ s.head? = some '*' then ⟨.unknown, 1, modes⟩ else scanSingle modes c := by
  rw [scanSymbol.eq_def, h]
  dsimp only
  split
  · next hs =>
    obtain ⟨rfl, rfl⟩ := List.cons.inj hs
    rfl
  · next hs =>
    obtain ⟨rfl, rfl⟩ := List.cons.inj hs
    exact (if_neg fun h => absurd h.1 (by decide)).symm
  · next hs =>
    obtain ⟨rfl, rfl⟩ := List.cons.inj hs
    exact (if_neg fun h => absurd h.1 (by decide)).symm
  · next hs =>
    obtain ⟨rfl, rfl⟩ := List.cons.inj hs
    exact (if_neg fun h => absurd h.1 (by decide)).symm
  · next hcomment hopen hclose hbracket hs =>
    obtain ⟨rfl, rfl⟩ := List.cons.inj hs
    have hnot : ¬(c = '/' ∧ s.head? = some '*') := by
      rintro ⟨rfl, hstar⟩
      obtain ⟨r, rfl⟩ := List.head?_eq_some_iff.mp hstar
      exact hcomment r rfl rfl
    rw [if_neg hnot, scanSingle] <;> assumption
  · next hs => cases hs

lemma scanSymbol_stops (hp : p ≠ []) (hy : Stops y)
    (hknown : (scanSymbol modes (p ++ x)).kind ≠ .unknown)
    (h : (scanSymbol modes (p ++ x)).length ≤ p.length) :
    scanSymbol modes (p ++ y) = scanSymbol modes (p ++ x) := by
  have hfind : symbols.find? (·.isPrefixOf (p ++ x)) = symbols.find? (·.isPrefixOf p) := by
    refine find?_isPrefixOf fun op hop => ?_
    rw [scanSymbol_some hop] at h
    exact h
  have hfind' := find?_symbols_stops hp hy
  cases hop : symbols.find? (·.isPrefixOf p) with
  | some op =>
    rw [hop] at hfind hfind'
    rw [scanSymbol_some hfind, scanSymbol_some hfind']
  | none =>
    rw [hop] at hfind hfind'
    obtain ⟨c, p, rfl⟩ := List.exists_cons_of_ne_nil hp
    obtain ⟨d, s, rfl⟩ := hy.exists_cons
    have hstar : d ≠ '*' := hy.ne (by decide) (by decide)
    rw [List.cons_append] at hfind hfind' hknown ⊢
    rw [List.cons_append]
    rw [scanSymbol_none hfind] at hknown ⊢
    rw [scanSymbol_none hfind']
    split at hknown
    · exact absurd rfl hknown
    · next hx =>
      rw [if_neg hx, if_neg]
      rintro ⟨hc, hs⟩
      cases p with
      | nil => exact hstar (Option.some.inj hs)
      | cons e p => exact hx ⟨hc, hs⟩

end EloquentEntity.Syntax

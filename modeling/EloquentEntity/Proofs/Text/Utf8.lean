import EloquentEntity.Text.Utf8
import Mathlib.Tactic.Common

/-!
UTF-8 that a text is encoded as decodes to the text.
-/

namespace EloquentEntity.Text.Utf8

variable {b b₁ b₂ b₃ : UInt8} {c : Char} (bs : List UInt8)

/-! ### One character -/

lemma isContinuation_iff : isContinuation b ↔ 0x80 ≤ b.toNat ∧ b.toNat < 0xC0 := by
  simp [isContinuation, UInt8.le_iff_toNat_le, UInt8.lt_iff_toNat_lt]

lemma decodeChar_one (h : b.toNat < 0x80) :
    decodeChar b bs = .ok (Char.ofNat b.toNat, bs) := by
  rw [decodeChar.eq_def, if_pos (by simpa [UInt8.lt_iff_toNat_lt] using h)]

lemma decodeChar_two (h : 0xC2 ≤ b.toNat ∧ b.toNat < 0xE0) (h₁ : isContinuation b₁) :
    decodeChar b (b₁ :: bs) = .ok (Char.ofNat (extend (b.toNat - 0xC0) b₁), bs) := by
  simp only [decodeChar, h₁, UInt8.lt_iff_toNat_lt]
  rw [if_neg, if_neg, if_pos] <;> simp <;> omega

lemma decodeChar_three (h : 0xE0 ≤ b.toNat ∧ b.toNat < 0xF0) (h₁ : isContinuation b₁)
    (hrange : (if b₁ < 0xA0 then b == 0xE0 else b == 0xED) = false) (h₂ : isContinuation b₂) :
    decodeChar b (b₁ :: b₂ :: bs) =
      .ok (Char.ofNat (extend (extend (b.toNat - 0xE0) b₁) b₂), bs) := by
  simp only [decodeChar, h₁, hrange, h₂]
  simp only [UInt8.lt_iff_toNat_lt]
  rw [if_neg, if_neg, if_neg, if_pos] <;> simp <;> omega

lemma decodeChar_four (h : 0xF0 ≤ b.toNat ∧ b.toNat < 0xF5) (h₁ : isContinuation b₁)
    (hrange : (if b₁ < 0x90 then b == 0xF0 else b == 0xF4) = false) (h₂ : isContinuation b₂)
    (h₃ : isContinuation b₃) :
    decodeChar b (b₁ :: b₂ :: b₃ :: bs) =
      .ok (Char.ofNat (extend (extend (extend (b.toNat - 0xF0) b₁) b₂) b₃), bs) := by
  simp only [decodeChar, h₁, hrange, h₂, h₃]
  simp only [UInt8.lt_iff_toNat_lt]
  rw [if_neg, if_neg, if_neg, if_neg, if_pos] <;> simp <;> omega

lemma toNat_ofNat {n : Nat} (h : n < 256) : (UInt8.ofNat n).toNat = n :=
  UInt8.toNat_ofNat_of_lt' h

lemma isContinuation_ofNat (n : Nat) : isContinuation (UInt8.ofNat (n % 64 + 128)) := by
  rw [isContinuation_iff, toNat_ofNat (by omega)]
  omega

lemma extend_ofNat (m n : Nat) : extend m (UInt8.ofNat (n % 64 + 128)) = 64 * m + n % 64 := by
  unfold extend
  rw [toNat_ofNat (by omega), Nat.add_sub_cancel]

/-- The bytes of a character are read as the character. -/
lemma decodeChar_utf8EncodeChar (c : Char) :
    ∃ b cs, String.utf8EncodeChar c = b :: cs ∧ decodeChar b (cs ++ bs) = .ok (c, bs) := by
  have hvalid : c.toNat < 0xD800 ∨ 0xDFFF < c.toNat ∧ c.toNat < 0x110000 := by
    have := c.valid
    simpa only [UInt32.isValidChar, Nat.isValidChar, Char.toNat_val] using this
  have hchar {n : Nat} (h : n = c.toNat) : Char.ofNat n = c := by rw [h, Char.ofNat_toNat]
  rw [String.utf8EncodeChar.eq_1, Char.toNat_val]
  split
  · -- One byte.
    have hb := toNat_ofNat (n := c.toNat) (by omega)
    refine ⟨_, _, rfl, ?_⟩
    rw [List.nil_append, decodeChar_one bs (by omega), hb, hchar rfl]
  split
  · -- Two bytes.
    have hb := toNat_ofNat (n := c.toNat / 64 % 32 + 192) (by omega)
    refine ⟨_, _, rfl, ?_⟩
    rw [List.singleton_append, decodeChar_two bs (by omega) (isContinuation_ofNat _),
      extend_ofNat, hchar (by omega)]
  split
  · -- Three bytes: overlong forms and surrogates are to be ruled out.
    have hb := toNat_ofNat (n := c.toNat / 4096 % 16 + 224) (by omega)
    have hb₁ := toNat_ofNat (n := c.toNat / 64 % 64 + 128) (by omega)
    refine ⟨_, _, rfl, ?_⟩
    rw [List.cons_append, List.singleton_append, decodeChar_three bs (by omega)
      (isContinuation_ofNat _) ?_ (isContinuation_ofNat _), extend_ofNat, extend_ofNat,
      hchar (by omega)]
    split
    all_goals
      next h =>
      rw [UInt8.lt_iff_toNat_lt, hb₁] at h
      rw [beq_eq_false_iff_ne, ne_eq, ← UInt8.toNat_inj, hb]
      simp at h ⊢
      omega
  · -- Four bytes: overlong forms and numbers beyond Unicode are to be ruled out.
    have hb := toNat_ofNat (n := c.toNat / 262144 % 8 + 240) (by omega)
    have hb₁ := toNat_ofNat (n := c.toNat / 4096 % 64 + 128) (by omega)
    refine ⟨_, _, rfl, ?_⟩
    rw [List.cons_append, List.cons_append, List.singleton_append, decodeChar_four bs (by omega)
      (isContinuation_ofNat _) ?_ (isContinuation_ofNat _) (isContinuation_ofNat _),
      extend_ofNat, extend_ofNat, extend_ofNat, hchar (by omega)]
    split
    all_goals
      next h =>
      rw [UInt8.lt_iff_toNat_lt, hb₁] at h
      rw [beq_eq_false_iff_ne, ne_eq, ← UInt8.toNat_inj, hb]
      simp at h ⊢
      omega

/-! ### Texts -/

variable {s : List Char}

lemma encode_cons (c : Char) (s : List Char) :
    encode (c :: s) = String.utf8EncodeChar c ++ encode s := List.flatMap_cons

lemma length_le_length_encode (s : List Char) : s.length ≤ (encode s).length := by
  induction s with
  | nil => exact Nat.le_refl 0
  | cons c s ih =>
    have hpos : 0 < (String.utf8EncodeChar c).length :=
      List.length_pos_iff.mpr String.utf8EncodeChar_ne_nil
    rw [encode_cons, List.length_append, List.length_cons]
    omega

lemma decodeLossyFrom_encode {fuel : Nat} (h : s.length ≤ fuel) :
    decodeLossyFrom fuel (encode s) = s := by
  induction s generalizing fuel with
  | nil => cases fuel <;> rfl
  | cons c s ih =>
    cases fuel with
    | zero => cases h
    | succ fuel =>
      obtain ⟨b, bs, hbytes, hchar⟩ := decodeChar_utf8EncodeChar (encode s) c
      rw [encode_cons, hbytes, List.cons_append, decodeLossyFrom, hchar]
      exact congrArg (c :: ·) (ih (Nat.le_of_succ_le_succ h))

lemma decodeLossy_encode (s : List Char) : decodeLossy (encode s) = s :=
  decodeLossyFrom_encode (length_le_length_encode s)

end EloquentEntity.Text.Utf8

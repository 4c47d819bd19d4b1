import EloquentEntity.Database.PercentCoding
import EloquentEntity.Proofs.Text.Ascii
import EloquentEntity.Proofs.Text.Utf8
import Mathlib.Data.Bool.AllAny

/-!
Percent coding is undone by decoding, and no character comes into a text by it but unreserved ones
and percent signs.

The written text is ASCII throughout, so it is decoded in one stretch.
-/

namespace EloquentEntity.PercentCoding

open Text

variable {safe s : List Char} {c : Char}

/-! ### Digits -/

lemma isAlphanum_hexDigit : ∀ n < 16, (hexDigit n).isAlphanum := by decide

lemma hexValue?_hexDigit : ∀ n < 16, hexValue? (hexDigit n) = some n := by decide

lemma isUnreserved_hexDigit {n : Nat} (h : n < 16) : isUnreserved (hexDigit n) := by
  rw [isUnreserved, isAlphanum_hexDigit n h, Bool.true_or]

/-! ### What is written -/

lemma toNat_of_isUnreserved (h : isUnreserved c) : c.toNat < 128 ∧ c ≠ '%' := by
  rw [isUnreserved, Bool.or_eq_true] at h
  rcases h with h | h
  · refine ⟨Nat.lt_of_le_of_lt (toNat_of_isAlphanum h).2 (by decide), ?_⟩
    rintro rfl
    exact absurd h (by decide)
  · have hmarks : "_.-~".toList.all fun d => d.toNat < 128 ∧ d ≠ '%' := by decide
    exact List.all_iff_forall_prop.mp hmarks c (List.contains_iff_mem.mp h)

/-- What is written is unreserved or safe, or a percent sign. -/
lemma mem_encode (h : c ∈ encode safe s) : isUnreserved c ∨ c ∈ safe ∨ c = '%' := by
  obtain ⟨d, -, hd⟩ := List.mem_flatMap.mp h
  split at hd
  · next hkeep =>
    obtain rfl := List.mem_singleton.mp hd
    rw [Bool.or_eq_true, List.contains_iff_mem] at hkeep
    exact hkeep.imp_right .inl
  · obtain ⟨b, -, hb⟩ := List.mem_flatMap.mp hd
    have hlt := b.toNat_lt
    simp only [encodeByte, List.mem_cons, List.not_mem_nil, or_false] at hb
    rcases hb with rfl | rfl | rfl
    · exact .inr (.inr rfl)
    · exact .inl (isUnreserved_hexDigit (by omega))
    · exact .inl (isUnreserved_hexDigit (by omega))

/-- A character that is neither unreserved nor safe is not written, save for the percent sign. -/
lemma notMem_encode (hc : isUnreserved c = false) (hsafe : c ∉ safe) (hne : c ≠ '%') :
    c ∉ encode safe s := by
  intro h
  rcases mem_encode h with h | h | h
  · rw [hc] at h
    cases h
  · exact hsafe h
  · exact hne h

/-! ### What is read -/

lemma bytes_cons (hc : c ≠ '%') (s : List Char) : bytes (c :: s) = c.toUInt8 :: bytes s :=
  bytes.eq_3 c s fun _ _ _ h _ => hc h

lemma bytes_encodeByte (b : UInt8) (s : List Char) : bytes (encodeByte b ++ s) = b :: bytes s := by
  have hlt := b.toNat_lt
  have hbyte : UInt8.ofNat (16 * (b.toNat / 16) + b.toNat % 16) = b := by
    rw [Nat.div_add_mod, UInt8.ofNat_toNat]
  rw [encodeByte, List.cons_append, List.cons_append, List.cons_append, List.nil_append,
    bytes.eq_2, hexValue?_hexDigit _ (by omega), hexValue?_hexDigit _ (by omega)]
  exact congrArg (· :: bytes s) hbyte

lemma bytes_flatMap_encodeByte (bs : List UInt8) (s : List Char) :
    bytes (bs.flatMap encodeByte ++ s) = bs ++ bytes s := by
  induction bs with
  | nil => rfl
  | cons b bs ih =>
    rw [List.flatMap_cons, List.append_assoc, bytes_encodeByte, ih, List.cons_append]

lemma utf8EncodeChar_of_lt (h : c.toNat < 128) : String.utf8EncodeChar c = [c.toUInt8] := by
  refine String.utf8EncodeChar_eq_singleton (Char.utf8Size_eq_one_iff.mpr ?_)
  rw [UInt32.le_iff_toNat_le, Char.toNat_val]
  exact Nat.le_of_lt_succ h

/-- The bytes of the written text are those of the text in UTF-8. -/
lemma bytes_encode (hsafe : ∀ c ∈ safe, c.toNat < 128 ∧ c ≠ '%') (s : List Char) :
    bytes (encode safe s) = Utf8.encode s := by
  induction s with
  | nil => rfl
  | cons c s ih =>
    rw [encode, List.flatMap_cons, ← encode, Utf8.encode_cons]
    split
    · next hkeep =>
      rw [Bool.or_eq_true, List.contains_iff_mem] at hkeep
      obtain ⟨hascii, hne⟩ := hkeep.elim toNat_of_isUnreserved (hsafe c)
      rw [List.singleton_append, bytes_cons hne, ih, utf8EncodeChar_of_lt hascii,
        List.singleton_append]
    · rw [bytes_flatMap_encodeByte, ih]

lemma stretches_of_ascii (h : ∀ c ∈ s, c.toNat < 128) (hne : s ≠ []) :
    stretches s = [(true, s)] := by
  induction s with
  | nil => exact absurd rfl hne
  | cons c s ih =>
    obtain ⟨hc, hs⟩ := List.forall_mem_cons.mp h
    rw [stretches, decide_eq_true hc]
    rcases s with _ | ⟨d, s⟩
    · rfl
    · rw [ih hs (by simp)]
      rfl

lemma decode_of_ascii (h : ∀ c ∈ s, c.toNat < 128) : decode s = Utf8.decodeLossy (bytes s) := by
  by_cases hne : s = []
  · rw [hne]
    rfl
  · rw [decode, stretches_of_ascii h hne]
    simp

/-- Decoding gives back what was encoded. -/
lemma decode_encode (hsafe : ∀ c ∈ safe, c.toNat < 128 ∧ c ≠ '%') (s : List Char) :
    decode (encode safe s) = s := by
  have hascii : ∀ c ∈ encode safe s, c.toNat < 128 := by
    intro c hc
    rcases mem_encode hc with h | h | rfl
    · exact (toNat_of_isUnreserved h).1
    · exact (hsafe c h).1
    · decide
  rw [decode_of_ascii hascii, bytes_encode hsafe, Utf8.decodeLossy_encode]

end EloquentEntity.PercentCoding

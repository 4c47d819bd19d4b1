import EloquentEntity.Proofs.Syntax.Place
import EloquentEntity.Text.LetterCase

/-!
Letters next to each other.

A word takes all the letters that are next, so that letters in two tokens are parted. Therefore no
text of several tokens is the word `class` in any case.
-/

namespace EloquentEntity.Text

open Syntax

lemma mem_lowerFrom {before s : List Char} {c d : Char} (hc : c ∈ s) (hsigma : c ≠ 'Σ')
    (hd : d ∈ lowerChar c) : d ∈ lowerFrom before s := by
  induction s generalizing before with
  | nil => cases hc
  | cons e s ih =>
    rw [lowerFrom]
    split
    · next he =>
      obtain rfl : e = 'Σ' := by simpa using he
      rcases List.mem_cons.mp hc with rfl | hc
      · exact absurd rfl hsigma
      · exact List.mem_cons_of_mem _ (ih hc)
    · rcases List.mem_cons.mp hc with rfl | hc
      · exact List.mem_append_left _ hd
      · exact List.mem_append_right _ (ih hc)

lemma sigma_lowerFrom {before s : List Char} (hc : 'Σ' ∈ s) :
    'ς' ∈ lowerFrom before s ∨ 'σ' ∈ lowerFrom before s := by
  induction s generalizing before with
  | nil => cases hc
  | cons e s ih =>
    rw [lowerFrom]
    split
    · split <;> simp
    · next he =>
      have hs : 'Σ' ∈ s := by
        rcases List.mem_cons.mp hc with rfl | hc
        · exact absurd rfl he
        · exact hc
      exact (ih hs).imp (List.mem_append_right _) (List.mem_append_right _)

lemma toNat_ofNat_cases (n : Nat) : (Char.ofNat n).toNat = n ∨ (Char.ofNat n).toNat = 0 := by
  unfold Char.ofNat
  by_cases hn : n.isValidChar
  · rw [dif_pos hn]
    exact .inl rfl
  · rw [dif_neg hn]
    exact .inr rfl

lemma isWordStart_of_lowerChar {c : Char} (h : ∀ d ∈ lowerChar c, d ∈ "class".toList) :
    isWordStart c = true := by
  rw [lowerChar] at h
  split at h
  · next hc =>
    have hall : ∀ n < 128, (Char.ofNat n).toLower ∈ "class".toList →
        isWordStart (Char.ofNat n) = true := by decide
    have := hall c.toNat hc
    rw [Char.ofNat_toNat] at this
    exact this (h _ (by simp))
  next hc =>
  split at h
  · exact absurd (h 'i' (by simp)) (by decide)
  split at h
  · next r d hfind =>
    have hrules : lowerRules.all (fun r => "class".toList.all fun m =>
        !r.1.has (m.toNat - r.2).toNat) = true := by decide +kernel
    have hhas : r.has c.toNat = true := by simpa using List.find?_some hfind
    have hletter := h _ (List.mem_singleton_self _)
    have hrule := List.all_eq_true.mp hrules _ (List.mem_of_find?_eq_some hfind)
    have hno := List.all_eq_true.mp hrule _ hletter
    have hpos : ∀ d ∈ "class".toList, 0 < d.toNat := by simp
    have hne := hpos _ hletter
    have hsame := (toNat_ofNat_cases ((c.toNat : Int) + d).toNat).resolve_right (Nat.ne_of_gt hne)
    have hback : (((Char.ofNat ((c.toNat : Int) + d).toNat).toNat : Int) - d).toNat = c.toNat := by
      omega
    rw [hback, hhas] at hno
    cases hno
  · have hlow : ∀ d ∈ "class".toList, d.toNat < 128 := by simp
    exact absurd (hlow c (h c (by simp))) hc

/-- A text that is `class` in any case is made of letters. -/
lemma isWordStart_of_lower {s : List Char} (h : lower s = "class".toList) :
    ∀ c ∈ s, isWordStart c = true := by
  intro c hc
  by_cases hsigma : c = 'Σ'
  · subst hsigma
    have hfinal : 'ς' ∈ lower s ∨ 'σ' ∈ lower s := sigma_lowerFrom hc
    rw [h] at hfinal
    exact absurd hfinal (by decide)
  · refine isWordStart_of_lowerChar fun d hd => ?_
    rw [← h]
    exact mem_lowerFrom hc hsigma hd

end EloquentEntity.Text

namespace EloquentEntity.Syntax

variable {source : String} {root : Tree} {ts : List Token} {t : Token} {modes : List Mode}

/-! ### Letters next to each other -/

lemma scanCode_letters {modes modes' : List Mode} {s : List Char} {k : TokenKind} {n : Nat}
    (h : scanCode modes s = ⟨k, n, modes'⟩) (hpos : 0 < n) (hknown : k ≠ .unknown)
    (hletters : ∀ c ∈ s.take n, isWordStart c = true) : k = .word := by
  obtain ⟨m, rfl⟩ := Nat.exists_eq_succ_of_ne_zero hpos.ne'
  cases s with
  | nil => cases congrArg Scan.length h
  | cons c s =>
    rw [scanCode, if_pos (hletters c (by simp)), scanWord] at h
    have hword {n : Nat} (h : (⟨.word, n, modes⟩ : Scan) = ⟨k, m + 1, modes'⟩) : k = .word :=
      (congrArg Scan.kind h).symm
    split at h
    · cases hstring : scanString modes 1 (c :: s) with
      | none =>
        rw [hstring] at h
        exact hword h
      | some x =>
        rw [hstring, Option.getD_some] at h
        subst h
        -- The string's opening stands behind the letter.
        have hlt : 1 < m + 1 := mark_lt_length hstring hknown
        obtain ⟨m, rfl⟩ : ∃ m', m = m' + 1 := ⟨m - 1, by omega⟩
        rcases s with _ | ⟨d, s⟩
        · cases hstring
        · have hletter : isWordStart d = true := hletters d (by simp)
          have hopening : d ∉ opening := by
            simp only [opening, List.mem_cons, List.not_mem_nil, or_false]
            rintro (rfl | rfl | rfl) <;> exact absurd hletter (by decide)
          rw [scanString_none (by simpa using hopening)] at hstring
          cases hstring
    · exact hword h

lemma isWordStart_of_closing {q : Quote} {c : Char} {s : List Char} {n : Nat} (hq : q.Proper)
    (h : q.closing (c :: s) = some n) : isWordStart c = false := by
  cases q with
  | mark d =>
    rw [closing_mark] at h
    split at h
    · next hcd =>
      subst hcd
      rcases hq with rfl | rfl <;> decide
    · cases h
  | heredoc l =>
    obtain ⟨e, r, k, rfl | rfl, hr, -, -⟩ := closing_heredoc_eq_some_iff.mp h <;>
    · rw [(List.cons.inj hr).1]
      decide

/-- A token of letters outside of strings is a word. -/
lemma scan_letters {modes modes' : List Mode} {s : List Char} {k : TokenKind} {n : Nat}
    (hnested : Nested modes) (h : scan modes s = ⟨k, n, modes'⟩) (hm : InBlocks modes')
    (hpos : 0 < n) (hknown : k ≠ .unknown) (hletters : ∀ c ∈ s.take n, isWordStart c = true) :
    k = .word := by
  induction modes with
  | nil =>
    rw [scan_inBlocks (by simp [InBlocks])] at h
    exact scanCode_letters h hpos hknown hletters
  | cons m modes ih =>
    cases m with
    | block | index =>
      rw [scan_of_not_tight rfl] at h
      exact scanCode_letters h hpos hknown hletters
    | member =>
      rw [scan] at h
      exact (congrArg Scan.kind h).symm
    | afterVariable =>
      rw [scan_afterVariable] at h
      cases hk : variableStep modes s with
      | none =>
        rw [hk] at h
        exact ih hnested.tail h
      | some x =>
        rw [hk, Option.getD_some] at h
        subst h
        obtain ⟨-, -, -, -, hopen, -⟩ := variableStep_split hk
        exact absurd hm hopen
    | template q =>
      rw [scan] at h
      have hs : s ≠ [] := by
        rintro rfl
        have hclosing : q.closing [] = none := by cases q <;> rfl
        rw [scanInside.eq_def, hclosing] at h
        exact hpos.ne (congrArg Scan.length h)
      -- In a string letters close nothing, and any other token stays in it.
      obtain ⟨_, hclosing, -⟩ | ⟨hclosing, hopens⟩ | ⟨-, hk⟩ :=
        scanInside_cases (q := q) (.template q :: modes) hs
      · obtain ⟨c, s, rfl⟩ := List.exists_cons_of_ne_nil hs
        obtain ⟨n, rfl⟩ := Nat.exists_eq_succ_of_ne_zero hpos.ne'
        have hletter := hletters c (by simp)
        rw [isWordStart_of_closing (hnested.proper (by simp)) hclosing] at hletter
        cases hletter
      · obtain ⟨m, hmodes⟩ := exists_modes_of_opens (.template q :: modes) hclosing hopens
        rw [h] at hmodes
        obtain rfl : modes' = m :: .template q :: modes := hmodes
        exact absurd hm (not_inBlocks_template m)
      · rw [hk] at h
        obtain rfl : .template q :: modes = modes' := congrArg Scan.modes h
        exact absurd hm (not_inBlocks_cons (by simp))

lemma Run.exists_last {modes modes' : List Mode} {s s' : List Char}
    (h : Run modes s (ts ++ [t]) modes' s') (hm : Nested modes) :
    ∃ modes₁, Nested modes₁ ∧ scan modes₁ (t.text ++ s') = ⟨t.kind, t.text.length, modes'⟩ ∧
      t.text ≠ [] := by
  induction ts generalizing modes s with
  | nil =>
    cases h with
    | cons _ hscan hne hrest =>
      cases hrest
      exact ⟨modes, hm, hscan, hne⟩
  | cons u ts ih =>
    cases h with
    | @cons _ _ _ _ s₁ _ _ _ _ hscan _ hrest =>
      have hnested := (hm.scan (u.text ++ s₁)).nested
      rw [hscan] at hnested
      exact ih hrest hnested

lemma isWordStart_of_piece {c : Char} {s : List Char} (h : pieceLength (c :: s) ≠ 0) :
    isWordStart c = false := by
  by_cases hc : c ∈ ['/', '#', '?']
  · simp only [List.mem_cons, List.not_mem_nil, or_false] at hc
    rcases hc with rfl | rfl | rfl <;> decide
  · rw [pieceLength_other hc] at h
    rw [Bool.eq_false_iff]
    intro hstart
    rw [isSpace_of_isWordStart hstart] at h
    exact h rfl

lemma lead_letters {g r : List Char} {b : Bool} (hm : InBlocks modes)
    (h : lead modes (g ++ r) = ⟨g, b, r⟩) (hletters : ∀ c ∈ g, isWordStart c = true) : g = [] := by
  cases g with
  | nil => rfl
  | cons c g =>
    rw [List.cons_append, lead, isTight_inBlocks hm, if_neg (by simp)] at h
    have hpiece : pieceLength (c :: (g ++ r)) ≠ 0 := by
      intro hzero
      rw [gap, gapLength_zero hzero] at h
      cases congrArg Gap.chars h
    have hletter := hletters c (by simp)
    rw [isWordStart_of_piece hpiece] at hletter
    cases hletter

lemma Place.Reached.exists_last {p : Place source} {r : List Char}
    (h : p.Reached ts modes r) (ht : t ∈ p.before.getLast?) :
    ∃ init u, ts = init ++ [u] ∧ u.lexeme = t.lexeme := by
  have hlast : ts.getLast?.map Token.lexeme = some t.lexeme := by
    rw [← List.getLast?_map, ← h.lexemes_eq, List.getLast?_map, Option.mem_def.mp ht]
    rfl
  obtain ⟨u, hu, hut⟩ := Option.map_eq_some_iff.mp hlast
  obtain ⟨init, rfl⟩ := List.getLast?_eq_some_iff.mp hu
  exact ⟨init, u, rfl, hut⟩

/-- Letters do not go on over the gap: they would be one word. -/
lemma Place.apart (p : Place source) (hroot : parse source = some root) {t : Token}
    (ht : t ∈ p.before.getLast?) :
    ¬ ∀ c ∈ t.text ++ p.next.gap ++ p.next.text, isWordStart c = true := by
  intro hletters
  obtain ⟨ts, modes, r, h⟩ := p.exists_reached
  have hempty : p.before ≠ [] := by
    intro hnil
    rw [hnil] at ht
    cases ht
  have hgap : p.next.gap = p.row ++ p.back := by
    have htag := p.tag_eq
    rw [if_neg hempty] at htag
    rw [p.gap_eq, htag, List.nil_append]
  obtain ⟨init, u, hts, hu⟩ := h.exists_last ht
  have hknown := (h.isKnown hroot u (by simp [hts])).1
  have hrun := h.run
  rw [hts] at hrun
  obtain ⟨modes₁, hnested, hscan, hne⟩ := hrun.exists_last .nil
  have hutext : u.text = t.text := congrArg Lexeme.text hu
  -- The gap is empty, and the token behind it starts with a letter.
  have hnogap : p.row ++ p.back = [] := by
    have hlead := h.lead_eq
    rw [← List.append_assoc] at hlead
    refine lead_letters h.inBlocks hlead fun c hc => hletters c ?_
    rw [hgap]
    exact List.mem_append_left _ (List.mem_append_right _ hc)
  obtain ⟨hrow, hback⟩ := List.append_eq_nil_iff.mp hnogap
  have hnext := h.tokensFrom_eq (r.length + 1) (Nat.lt_succ_self _)
  obtain ⟨fuel, n, -, hn, hhead, -⟩ := exists_of_tokensFrom hnext p.after_ne
  obtain ⟨d, r, rfl⟩ := List.exists_cons_of_ne_nil h.rest_ne
  have hd : isWordStart d = true := by
    refine hletters d ?_
    have htext : p.next.text = (d :: r).take (n + 1) := congrArg Token.text hhead
    rw [htext]
    simp
  -- So the word before would be longer.
  rw [hrow, hback, List.nil_append, List.nil_append] at hscan
  have hword : u.kind = .word := by
    refine scan_letters hnested hscan h.inBlocks (List.length_pos_iff.mpr hne) hknown fun c hc => ?_
    rw [List.take_left, hutext] at hc
    exact hletters c (by simp [hc])
  rw [hword] at hscan
  have hlength := length_scan (congrArg Scan.kind hscan)
  rw [hscan, List.takeWhile_append_of_pos fun c hc => ?_, List.takeWhile_cons,
    if_pos (isWordPart_of_isWordStart hd)] at hlength
  · simp at hlength
  · rw [hutext] at hc
    exact isWordPart_of_isWordStart (hletters c (by simp [hc]))

end EloquentEntity.Syntax

import EloquentEntity.Proofs.Syntax.StringEnd

/-!
Where gaps end.

A gap is a row of pieces: white space, comments, text outside the code. A row that ends where the
next piece may begin is taken in whatever comes behind it, and a gap before a token is the same
whatever comes behind the token.
-/

namespace EloquentEntity.Syntax

variable {p r s x y : List Char} {c : Char} {n k : Nat} {b : Bool}

/-! ### Comments -/

lemma lineLength_cons (hc : c ∉ ['\n', '\r', '?']) (s : List Char) :
    lineLength (c :: s) = lineLength s + 1 := by
  simp only [List.mem_cons, List.not_mem_nil, or_false, not_or] at hc
  rw [lineLength.eq_9] <;> simp [hc]

lemma lineLength_mark (hc : c ∉ ['>', '\n', '\r']) (s : List Char) :
    lineLength ('?' :: c :: s) = lineLength s + 2 := by
  simp only [List.mem_cons, List.not_mem_nil, or_false, not_or] at hc
  rw [lineLength.eq_8] <;> simp [hc]

/-- A question mark before no closing tag belongs to the comment. -/
lemma lineLength_mark_pos (hc : c ≠ '>') (s : List Char) : 0 < lineLength ('?' :: c :: s) := by
  by_cases hend : c ∈ ['>', '\n', '\r']
  · simp only [List.mem_cons, List.not_mem_nil, or_false] at hend
    obtain h | rfl | rfl := hend
    · exact absurd h hc
    · exact Nat.one_pos
    · exact Nat.one_pos
  · rw [lineLength_mark hend]
    exact Nat.succ_pos _

lemma lineLength_append (h : lineLength (p ++ x) = n) (hn : n < p.length)
    (hmark : p.drop n = ['?'] → x ≠ [] ∧ x.head? ≠ some '>') : lineLength (p ++ y) = n := by
  fun_induction lineLength p generalizing n with
  | case1 => simp at hn
  | case2 p => simpa [lineLength] using h
  | case3 p => simpa [lineLength] using h
  | case4 p => simpa [lineLength] using h
  | case5 =>
    obtain rfl : n = 0 := by simpa using hn
    obtain ⟨hx, hhead⟩ := hmark rfl
    obtain ⟨c, x, rfl⟩ := List.exists_cons_of_ne_nil hx
    have := lineLength_mark_pos (by simpa using hhead) x
    rw [List.singleton_append] at h
    omega
  | case6 p => simpa [lineLength] using h
  | case7 p => simpa [lineLength] using h
  | case8 c p hclose hline hreturn ih =>
    have hc : c ∉ ['>', '\n', '\r'] := by simpa using ⟨hclose, hline, hreturn⟩
    simp only [List.cons_append, lineLength_mark hc] at h ⊢
    obtain ⟨m, rfl⟩ : ∃ m, n = m + 2 := ⟨lineLength (p ++ x), h.symm⟩
    rw [ih (by simpa using h) (by simpa using hn) hmark]
  | case9 c p hline hreturn hclose hend hline' hreturn' hmark' ih =>
    have hc : c ∉ ['\n', '\r', '?'] := by
      have : c ≠ '?' := by
        rintro rfl
        cases p with
        | nil => exact hend rfl rfl
        | cons d p => exact hmark' d p rfl rfl
      simpa using ⟨hline, hreturn, this⟩
    rw [List.cons_append, lineLength_cons hc] at h ⊢
    obtain ⟨m, rfl⟩ : ∃ m, n = m + 1 := ⟨lineLength (p ++ x), h.symm⟩
    rw [ih (by simpa using h) (by simpa using hn) hmark]

lemma two_le_blockLength (h : blockLength s = some n) : 2 ≤ n := by
  induction s generalizing n with
  | nil => cases h
  | cons c s ih =>
    rw [blockLength.eq_def] at h
    split at h
    · cases h
    · cases h
      rfl
    · next hs =>
      obtain ⟨k, hk, rfl⟩ := Option.map_eq_some_iff.mp h
      obtain ⟨rfl, rfl⟩ := List.cons.inj hs
      have := ih hk
      omega

lemma blockLength_cons (h : c = '*' → s.head? ≠ some '/') :
    blockLength (c :: s) = (blockLength s).map (· + 1) := by
  rw [blockLength]
  rintro r rfl rfl
  exact h rfl rfl

lemma blockLength_append (h : blockLength (p ++ x) = some n) (hn : n ≤ p.length) :
    blockLength (p ++ y) = some n := by
  fun_induction blockLength p generalizing n with
  | case1 =>
    have := two_le_blockLength h
    rw [List.length_nil] at hn
    omega
  | case2 p => simpa [blockLength] using h
  | case3 c p hmark ih =>
    rcases p with _ | ⟨d, p⟩
    · have := two_le_blockLength h
      rw [List.length_singleton] at hn
      omega
    · have hc : c = '*' → (d :: p).head? ≠ some '/' := by
        rintro rfl hd
        obtain rfl : d = '/' := by simpa using hd
        exact hmark p rfl rfl
      rw [List.cons_append, blockLength_cons (by simpa using hc), Option.map_eq_some_iff] at h ⊢
      obtain ⟨k, hk, rfl⟩ := h
      exact ⟨k, ih hk (by simpa using hn), rfl⟩

/-! ### Text outside the code -/

lemma Stops.toLower_eq (hy : Stops (c :: s)) : c.toLower = c := by
  refine toLower_of_not_isUpper fun hupper => ?_
  have := hy.isWordPart_eq_false
  rw [isWordPart_of_isAlpha (isAlpha_iff.mpr (.inl hupper))] at this
  cases this

lemma tagLength_eq (s : List Char) : tagLength s =
    if s.head? = some '=' then 1 else if asciiLower (s.take 3) = ['p', 'h', 'p'] then 3 else 0 := by
  rcases s with _ | ⟨a, s⟩
  · rfl
  · by_cases ha : a = '='
    · rw [ha, tagLength]
      rfl
    · rcases s with _ | ⟨b, _ | ⟨c, s⟩⟩
      · simp [tagLength, ha, asciiLower]
      · simp [tagLength, ha, asciiLower]
      · have htag : asciiLower ((a :: b :: c :: s).take 3) = asciiLower [a, b, c] := rfl
        rw [tagLength.eq_2 _ _ _ _ ha, htag]
        by_cases h : asciiLower [a, b, c] = ['p', 'h', 'p'] <;> simp [h, ha]

lemma tagLength_append (hy : Stops y) (h : tagLength (p ++ x) < p.length) :
    tagLength (p ++ y) = tagLength (p ++ x) := by
  have hp : p ≠ [] := by
    rintro rfl
    simp at h
  obtain ⟨d, s, rfl⟩ := hy.exists_cons
  have hd (e : Char) (he : isWordPart e = true) : d.toLower ≠ e := by
    rw [hy.toLower_eq]
    rintro rfl
    rw [hy.isWordPart_eq_false] at he
    cases he
  have hsecond : d.toLower ≠ 'h' := hd 'h' (by decide)
  have hthird : d.toLower ≠ 'p' := hd 'p' (by decide)
  have hhead (z : List Char) : (p ++ z).head? = p.head? := by
    obtain ⟨a, p, rfl⟩ := List.exists_cons_of_ne_nil hp
    rfl
  rw [tagLength_eq, hhead] at h ⊢
  rw [tagLength_eq, hhead]
  split
  · rfl
  · next hequals =>
    rw [if_neg hequals] at h
    -- A tag of which `p` holds less than three letters is no long one with either text behind.
    rcases p with _ | ⟨a, _ | ⟨b, _ | ⟨c, p⟩⟩⟩
    · exact absurd rfl hp
    · have htag : ¬ asciiLower (([a] ++ x).take 3) = ['p', 'h', 'p'] := fun htag => by
        rw [if_pos htag] at h
        simp at h
      rw [if_neg htag, if_neg]
      simp [asciiLower, hsecond]
    · have htag : ¬ asciiLower (([a, b] ++ x).take 3) = ['p', 'h', 'p'] := fun htag => by
        rw [if_pos htag] at h
        simp at h
      rw [if_neg htag, if_neg]
      simp [asciiLower, hthird]
    · rfl

lemma outsideLength_cons (h : c = '<' → s.head? ≠ some '?') :
    outsideLength (c :: s) = outsideLength s + 1 := by
  rw [outsideLength]
  rintro r rfl rfl
  exact h rfl rfl

lemma outsideLength_append (hy : Stops y) (h : outsideLength (p ++ x) < p.length) :
    outsideLength (p ++ y) = outsideLength (p ++ x) := by
  fun_induction outsideLength p with
  | case1 => simp at h
  | case2 p =>
    simp only [List.cons_append, outsideLength, List.length_cons] at h ⊢
    rw [tagLength_append (x := x) hy (by omega)]
  | case3 c p hmark ih =>
    rcases p with _ | ⟨d, p⟩
    · rw [List.length_singleton, Nat.lt_one_iff, List.singleton_append, outsideLength.eq_def] at h
      split at h <;> simp_all
    · have hc (z : List Char) : c = '<' → (d :: p ++ z).head? ≠ some '?' := by
        rintro rfl hd
        obtain rfl : d = '?' := by simpa using hd
        exact hmark p rfl rfl
      change outsideLength (c :: (d :: p ++ x)) < _ at h
      change outsideLength (c :: (d :: p ++ y)) = outsideLength (c :: (d :: p ++ x))
      rw [outsideLength_cons (hc x)] at h ⊢
      rw [outsideLength_cons (hc y), ih (by simpa using h)]

/-! ### Pieces -/

lemma pieceLength_cons (a b : Char) (s : List Char) : pieceLength (a :: b :: s) =
    if a = '/' then
      if b = '/' then lineLength s + 2
      else if b = '*' then ((blockLength s).map (· + 2)).getD 0 else 0
    else if a = '#' then
      if b = '[' then 0 else if b = '?' then 1 else lineLength (b :: s) + 1
    else if a = '?' then if b = '>' then outsideLength s + 2 else 0
    else if isSpace a then 1 else 0 := by
  split_ifs <;> subst_vars <;> first | rfl | simp +decide [pieceLength, *]

lemma pieceLength_line (s : List Char) : pieceLength ('/' :: '/' :: s) = lineLength s + 2 := rfl

lemma pieceLength_block (s : List Char) :
    pieceLength ('/' :: '*' :: s) = ((blockLength s).map (· + 2)).getD 0 := rfl

lemma pieceLength_close (s : List Char) : pieceLength ('?' :: '>' :: s) = outsideLength s + 2 := rfl

lemma pieceLength_slash (h : c ≠ '/' ∧ c ≠ '*') (s : List Char) :
    pieceLength ('/' :: c :: s) = 0 := by
  rw [pieceLength_cons, if_pos rfl, if_neg h.1, if_neg h.2]

lemma pieceLength_hash (h : c ≠ '[' ∧ c ≠ '?') (s : List Char) :
    pieceLength ('#' :: c :: s) = lineLength (c :: s) + 1 := by
  rw [pieceLength_cons, if_neg (by decide), if_pos rfl, if_neg h.1, if_neg h.2]

lemma pieceLength_mark (h : c ≠ '>') (s : List Char) : pieceLength ('?' :: c :: s) = 0 := by
  rw [pieceLength_cons, if_neg (by decide), if_neg (by decide), if_pos rfl, if_neg h]

lemma pieceLength_other (h : c ∉ ['/', '#', '?']) (s : List Char) :
    pieceLength (c :: s) = if isSpace c then 1 else 0 := by
  simp only [List.mem_cons, List.not_mem_nil, or_false, not_or] at h
  rw [pieceLength] <;> simp [h]

lemma pieceLength_append (hy : Stops y) (hpos : 0 < pieceLength (p ++ x))
    (h : pieceLength (p ++ x) < p.length)
    (hmark : p.drop (pieceLength (p ++ x)) = ['?'] → x ≠ [] ∧ x.head? ≠ some '>') :
    pieceLength (p ++ y) = pieceLength (p ++ x) := by
  obtain ⟨a, b, r, rfl⟩ : ∃ a b r, p = a :: b :: r := by
    rcases p with _ | ⟨a, _ | ⟨b, r⟩⟩
    · simp at h
    · rw [List.length_singleton] at h
      omega
    · exact ⟨a, b, r, rfl⟩
  simp only [List.cons_append, List.length_cons] at h hpos hmark ⊢
  by_cases ha : a ∈ ['/', '#', '?']
  · simp only [List.mem_cons, List.not_mem_nil, or_false] at ha
    obtain rfl | rfl | rfl := ha
    · by_cases hslash : b = '/'
      · subst hslash
        rw [pieceLength_line] at h hmark ⊢
        rw [pieceLength_line, lineLength_append rfl (by omega) hmark]
      -- After a slash: a line comment, a block comment, or no piece.
      by_cases hstar : b = '*'
      · subst hstar
        rw [pieceLength_block] at h hpos ⊢
        cases hblock : blockLength (r ++ x) with
        | none => simp [hblock] at hpos
        | some n =>
          rw [hblock] at h
          rw [pieceLength_block, hblock, blockLength_append hblock (by simpa using Nat.le_of_lt h)]
      · rw [pieceLength_slash ⟨hslash, hstar⟩] at hpos
        omega
    · -- After a number sign: an attribute, or a line comment.
      by_cases hbracket : b = '['
      · subst hbracket
        exact absurd hpos (Nat.lt_irrefl 0)
      by_cases hquestion : b = '?'
      · subst hquestion
        rfl
      · rw [pieceLength_hash ⟨hbracket, hquestion⟩] at h hmark ⊢
        rw [pieceLength_hash ⟨hbracket, hquestion⟩]
        have := lineLength_append (p := b :: r) (y := y) rfl (by simpa using h) hmark
        rw [List.cons_append, List.cons_append] at this
        rw [this]
    · -- After a question mark: a closing tag, or no piece.
      by_cases hclose : b = '>'
      · subst hclose
        rw [pieceLength_close] at h ⊢
        rw [pieceLength_close, outsideLength_append (x := x) hy (by omega)]
      · rw [pieceLength_mark hclose] at hpos
        omega
  · rw [pieceLength_other ha, pieceLength_other ha]

/-- Where no piece starts, none does with other text behind. -/
lemma pieceLength_eq_zero (hy : Stops y) (hp : p ≠ []) (hhash : p ≠ ['#'])
    (h : pieceLength (p ++ x) = 0) (hcomment : ¬ ['/', '*'] <+: p ++ x)
    (hslash : p = ['/'] → y.head? ≠ some '/') : pieceLength (p ++ y) = 0 := by
  rcases p with _ | ⟨a, _ | ⟨b, r⟩⟩
  · exact absurd rfl hp
  · -- A slash or a question mark alone goes on with nothing that `y` starts with.
    obtain ⟨d, s, rfl⟩ := hy.exists_cons
    by_cases ha : a ∈ ['/', '#', '?']
    · simp only [List.mem_cons, List.not_mem_nil, or_false] at ha
      obtain rfl | rfl | rfl := ha
      · exact pieceLength_slash ⟨by simpa using hslash rfl, hy.ne (by decide) (by decide)⟩ s
      · exact absurd rfl hhash
      · exact pieceLength_mark (hy.ne (by decide) (by decide)) s
    · rw [List.singleton_append, pieceLength_other ha] at h ⊢
      exact h
  · simp only [List.cons_append] at h hcomment ⊢
    by_cases ha : a ∈ ['/', '#', '?']
    · simp only [List.mem_cons, List.not_mem_nil, or_false] at ha
      obtain rfl | rfl | rfl := ha
      · by_cases hslash : b = '/'
        · subst hslash
          cases h
        · refine pieceLength_slash ⟨hslash, ?_⟩ _
          rintro rfl
          exact hcomment (List.prefix_append ['/', '*'] (r ++ x))
      · by_cases hbracket : b = '['
        · subst hbracket
          rfl
        by_cases hquestion : b = '?'
        · subst hquestion
          cases h
        · rw [pieceLength_hash ⟨hbracket, hquestion⟩] at h
          omega
      · by_cases hclose : b = '>'
        · subst hclose
          cases h
        · exact pieceLength_mark hclose _
    · rw [pieceLength_other ha] at h ⊢
      exact h

/-! ### Gaps -/

lemma gapLength_zero (h : pieceLength s = 0) : gapLength 0 s = (0, false) := by
  cases s with
  | nil => rfl
  | cons c s => rw [gapLength, h]

lemma gapLength_piece (h : pieceLength (c :: s) = k + 1) : gapLength 0 (c :: s) =
    ((gapLength k s).1 + 1, c == '?' || (gapLength k s).2) := by rw [gapLength, h]

lemma gapLength_drop (h : k ≤ s.length) :
    gapLength k s = ((gapLength 0 (s.drop k)).1 + k, (gapLength 0 (s.drop k)).2) := by
  induction s generalizing k with
  | nil =>
    obtain rfl : k = 0 := by simpa using h
    rfl
  | cons c s ih =>
    cases k with
    | zero => rfl
    | succ k =>
      rw [gapLength, ih (by simpa using h)]
      rfl

lemma pieceLength_drop_gapLength (k : Nat) (s : List Char) :
    pieceLength (s.drop (gapLength k s).1) = 0 := by
  induction s generalizing k with
  | nil => cases k <;> rfl
  | cons c s ih =>
    cases k with
    | succ k => exact ih k
    | zero =>
      cases hk : pieceLength (c :: s) with
      | zero => rwa [gapLength_zero hk]
      | succ k =>
        rw [gapLength_piece hk]
        exact ih k

lemma le_gapLength (k : Nat) (s : List Char) : min k s.length ≤ (gapLength k s).1 := by
  induction s generalizing k with
  | nil => simp
  | cons c s ih =>
    cases k with
    | zero => simp
    | succ k =>
      have := ih k
      change min (k + 1) (s.length + 1) ≤ (gapLength k s).1 + 1
      omega

/-- A closing tag whose question mark ends `p` takes the gap beyond `p`. -/
lemma length_le_gapLength (hp : p.drop k = ['?']) (hx : x.head? = some '>') :
    p.length + 1 ≤ (gapLength k (p ++ x)).1 + 1 := by
  obtain ⟨x, rfl⟩ := List.head?_eq_some_iff.mp hx
  have hlength : p.length = k + 1 := by
    have := congrArg List.length hp
    rw [List.length_drop, List.length_singleton] at this
    omega
  rw [gapLength_drop (by rw [List.length_append]; omega),
    List.drop_append_of_le_length (by omega), hp]
  change p.length + 1 ≤ (gapLength 0 ('?' :: '>' :: x)).1 + k + 1
  rw [gapLength_piece (k := outsideLength x + 1) rfl]
  dsimp only
  omega

/-- A gap that ends within `p`, before a character that starts no piece. -/
lemma gapLength_append (hy : Stops y) (hx : x ≠ []) (h : (gapLength k (p ++ x)).1 = n)
    (hn : n < p.length) (hnone : pieceLength (p.drop n ++ y) = 0) :
    gapLength k (p ++ y) = gapLength k (p ++ x) := by
  induction p generalizing k n with
  | nil => simp at hn
  | cons c p ih =>
    rw [List.length_cons] at hn
    cases k with
    | succ k =>
      change gapLength (k + 1) (c :: (p ++ y)) = gapLength (k + 1) (c :: (p ++ x))
      obtain rfl : (gapLength k (p ++ x)).1 + 1 = n := h
      rw [gapLength, gapLength, ih rfl (by omega) hnone]
    | zero =>
      change gapLength 0 (c :: (p ++ y)) = gapLength 0 (c :: (p ++ x))
      -- At the start of a piece; where none starts, the gap ends.
      cases hk : pieceLength (c :: (p ++ x)) with
      | zero =>
        rw [gapLength_zero hk]
        rw [List.cons_append, gapLength_zero hk] at h
        subst h
        exact gapLength_zero hnone
      | succ k =>
        rw [List.cons_append, gapLength_piece hk] at h
        subst h
        have hle := le_gapLength k (p ++ x)
        rw [List.length_append] at hle
        have hk' : pieceLength (c :: p ++ x) = k + 1 := hk
        have hpiece : pieceLength (c :: (p ++ y)) = k + 1 := by
          refine Eq.trans (pieceLength_append (p := c :: p) (x := x) hy ?_ ?_
            fun hmark => ⟨hx, fun hclose => ?_⟩) hk'
          · omega
          · rw [hk', List.length_cons]
            omega
          · rw [hk', List.drop_succ_cons] at hmark
            exact absurd hn (Nat.not_lt.mpr (length_le_gapLength hmark hclose))
        rw [gapLength_piece hk, gapLength_piece hpiece, ih rfl (by omega) hnone]

/-! ### Rows of pieces -/

variable {g u : List Char}

/-- White space, comments and text outside the code: part of a gap, whatever comes behind it. -/
def IsRow (g : List Char) : Prop := ∀ r, gapLength 0 (g ++ r) =
  ((gapLength 0 r).1 + g.length, (gapLength 0 g).2 || (gapLength 0 r).2)

lemma isRow_nil : IsRow [] := fun r => by simp [gapLength]

lemma IsRow.append (hg : IsRow g) (hu : IsRow u) : IsRow (g ++ u) := by
  intro r
  rw [List.append_assoc, hg, hu, hg u]
  simp [Nat.add_assoc, Nat.add_comm, Bool.or_assoc]

lemma IsRow.piece (hg : IsRow g) (hu : u ≠ [])
    (h : ∀ r, pieceLength (u ++ (g ++ r)) = u.length) : IsRow (u ++ g) := by
  obtain ⟨c, u, rfl⟩ := List.exists_cons_of_ne_nil hu
  have hrow (r : List Char) : gapLength 0 (c :: u ++ (g ++ r)) =
      ((gapLength 0 (g ++ r)).1 + (u.length + 1), c == '?' || (gapLength 0 (g ++ r)).2) := by
    have hpiece : pieceLength (c :: (u ++ (g ++ r))) = u.length + 1 := h r
    refine (gapLength_piece hpiece).trans ?_
    rw [gapLength_drop (by simp), List.drop_left]
    rfl
  intro r
  have hnil := hrow []
  rw [List.append_nil] at hnil
  rw [List.append_assoc, hrow, hnil, hg]
  refine Prod.ext ?_ (Bool.or_assoc _ _ _).symm
  simp only [List.length_append, List.length_cons]
  omega

lemma isRow_space (hc : isSpace c = true) : IsRow [c] := by
  refine isRow_nil.piece (List.cons_ne_nil c []) fun r => ?_
  have hother : c ∉ ['/', '#', '?'] := by
    simp only [List.mem_cons, List.not_mem_nil, or_false]
    rintro (rfl | rfl | rfl) <;> exact absurd hc (by decide)
  rw [List.nil_append, List.singleton_append, pieceLength_other hother, if_pos hc]
  rfl

lemma isRow_of_spaces (h : g.all isSpace = true) : IsRow g := by
  induction g with
  | nil => exact isRow_nil
  | cons c g ih =>
    rw [List.all_cons, Bool.and_eq_true] at h
    exact (isRow_space h.1).append (ih h.2)

lemma isRow_block (h : blockLength s = some s.length) : IsRow ('/' :: '*' :: s) := by
  have hrow : IsRow ('/' :: '*' :: s ++ []) := isRow_nil.piece (List.cons_ne_nil _ _) fun r => by
    have hs : blockLength (s ++ r) = some s.length :=
      blockLength_append (x := []) (by rwa [List.append_nil]) le_rfl
    rw [List.nil_append, List.cons_append, List.cons_append, pieceLength_block, hs]
    rfl
  rwa [List.append_nil] at hrow

end EloquentEntity.Syntax

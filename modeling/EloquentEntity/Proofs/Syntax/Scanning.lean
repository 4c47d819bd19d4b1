import EloquentEntity.Proofs.Syntax.StringEnd

/-!
What a token is does not depend on what stands behind it.

A token within `p` that is scanned off `p ++ x` is scanned off `p ++ y` too, for a `y` that starts
with white space or a slash. Only where a string with expressions opens does the lexer look beyond
the token, namely at the string's plain characters and what ends them.
-/

namespace EloquentEntity.Syntax

variable {p x y s r : List Char} {c : Char} {q : Quote} {modes : List Mode} {n : Nat} {k : Scan}

/-- The mark of a heredoc stands nowhere but where a heredoc starts. -/
def Marked (s p : List Char) : Prop := heredocStart s = none → ¬ "<<<".toList <+: p

/-- What comes behind the opening of a string is the same to the lexer. -/
structure Opens (q : Quote) (r x y : List Char) : Prop where
  lt : q.plainLength (r ++ x) < r.length
  plain_eq : q.plainLength (r ++ y) = q.plainLength (r ++ x)
  closing_eq : (q.closing ((r ++ y).drop (q.plainLength (r ++ x)))).isSome =
    (q.closing ((r ++ x).drop (q.plainLength (r ++ x)))).isSome
  two_le : q.closing ((r ++ x).drop (q.plainLength (r ++ x))) = none → 2 ≤ r.length

/-- A token that ends within `p`. -/
structure Ends (k : Scan) (p x y : List Char) : Prop where
  known : k.kind ≠ .unknown
  pos : 0 < k.length
  length_le : k.length ≤ p.length
  /-- More is to come in a string. -/
  length_lt : ¬ InBlocks k.modes → k.length < p.length
  opens : ∀ q modes, k.kind = .templateOpen → k.modes = .template q :: modes →
    Opens q (p.drop k.length) x y
  stops : ∀ q modes, k.kind = .templateText → k.modes = .template q :: modes →
    q.stops (p.drop k.length ++ y) = true

/-! ### Strings -/

section Template

variable {plain : TokenKind} {start : Nat}

lemma drop_append (hstart : start ≤ p.length) (x : List Char) :
    (p ++ x).drop start = p.drop start ++ x := List.drop_append_of_le_length hstart

lemma start_le_length (h : (scanTemplate modes q plain start s).kind ≠ .unknown) :
    start ≤ (scanTemplate modes q plain start s).length := by
  cases hm : q.closing ((s.drop start).drop (q.plainLength (s.drop start))) with
  | some m =>
    rw [scanTemplate_closed modes plain rfl hm]
    dsimp only
    omega
  | none =>
    rw [scanTemplate_unclosed modes plain rfl hm] at h ⊢
    split at h
    · exact absurd rfl h
    · next hsome => rw [if_neg hsome]

lemma start_le_of_ends (hends : Ends (scanTemplate modes q plain start (p ++ x)) p x y) :
    start ≤ p.length := Nat.le_trans (start_le_length hends.known) hends.length_le

/-- A string ends within `p`, or what comes behind its opening is the same to the lexer. -/
lemma scanTemplate_cases (hends : Ends (scanTemplate modes q plain start (p ++ x)) p x y) :
    (∃ m, q.closing ((p.drop start ++ x).drop (q.plainLength (p.drop start ++ x))) = some m ∧
      start + q.plainLength (p.drop start ++ x) + m ≤ p.length ∧
      (scanTemplate modes q plain start (p ++ x)).kind = plain) ∨
    q.closing ((p.drop start ++ x).drop (q.plainLength (p.drop start ++ x))) = none ∧
      Opens q (p.drop start) x y := by
  have hstart := start_le_of_ends hends
  cases hm : q.closing ((p.drop start ++ x).drop (q.plainLength (p.drop start ++ x))) with
  | some m =>
    rw [scanTemplate_closed modes plain (drop_append hstart x) hm] at hends ⊢
    exact .inl ⟨m, rfl, hends.length_le, rfl⟩
  | none =>
    rw [scanTemplate_unclosed modes plain (drop_append hstart x) hm] at hends
    split at hends
    · exact absurd rfl hends.known
    · exact .inr ⟨rfl, hends.opens q modes rfl rfl⟩

lemma scanTemplate_append (hq : q.Proper) (hy : Stops y)
    (hplain : plain ≠ .unknown ∧ plain ≠ .templateOpen)
    (hends : Ends (scanTemplate modes q plain start (p ++ x)) p x y) :
    scanTemplate modes q plain start (p ++ y) = scanTemplate modes q plain start (p ++ x) := by
  have hstart := start_le_of_ends hends
  obtain ⟨m, -, -, hkind⟩ | ⟨hnone, ho⟩ := scanTemplate_cases hends
  · exact scanTemplate_plain hq hy hplain hkind hstart hends.length_le
  · refine scanTemplate_open hstart ho.lt hnone ho.plain_eq ?_
    rw [ho.plain_eq, ← Option.isNone_iff_eq_none, ← Option.isSome_eq_false_iff, ho.closing_eq,
      hnone]
    rfl

end Template

/-- A heredoc's mark that goes on beyond `p` is none. -/
lemma Stops.heredocStart_eq_none (hy : Stops y) (h : ¬ "<<<".toList <+: p) :
    heredocStart (p ++ y) = none := by
  rw [Option.eq_none_iff_forall_ne_some]
  rintro ⟨n, l, b⟩ hsome
  obtain ⟨blanks, quotes, rest, hs, -⟩ := heredocStart_eq_some_iff.mp hsome
  obtain ⟨d, s, rfl⟩ := hy.exists_cons
  have hne : d ≠ '<' := hy.ne (by decide) (by decide)
  obtain ⟨p', rfl, -⟩ := append_split_of_notMem hs.symm (by simpa using hne)
  exact h (List.prefix_append _ p')

/-- What a heredoc or nowdoc is whose first line has been read. -/
lemma scanHeredoc_none {mark : Nat} (h : heredocStart (s.drop mark) = none) :
    scanHeredoc modes mark s = none := by rw [scanHeredoc, h]

lemma scanHeredoc_nowdoc {mark : Nat} {l : List Char}
    (h : heredocStart (s.drop mark) = some (n, l, true)) : scanHeredoc modes mark s =
      match nowdocLength l (s.drop (mark + n)) with
      | some m => some ⟨.nowdoc, mark + n + m, modes⟩
      | none => some ⟨.unknown, 1, modes⟩ := by
  cases hm : nowdocLength l (s.drop (mark + n)) <;> simp only [scanHeredoc, h, hm]

lemma scanHeredoc_heredoc {mark : Nat} {l : List Char}
    (h : heredocStart (s.drop mark) = some (n, l, false)) : scanHeredoc modes mark s =
      some (scanTemplate modes (.heredoc l) .heredoc (mark + n) s) := by rw [scanHeredoc, h]

lemma scanHeredoc_append {mark : Nat} (hy : Stops y) (hmark : mark ≤ p.length)
    (hmarked : Marked ((p ++ x).drop mark) (p.drop mark))
    (hends : ∀ k ∈ scanHeredoc modes mark (p ++ x), Ends k p x y) :
    scanHeredoc modes mark (p ++ y) = scanHeredoc modes mark (p ++ x) := by
  have hdrop (x : List Char) := drop_append hmark x
  cases hstart : heredocStart ((p ++ x).drop mark) with
  | none =>
    -- No heredoc starts here, and none does once other text follows.
    rw [scanHeredoc_none hstart, scanHeredoc_none]
    rw [hdrop]
    exact hy.heredocStart_eq_none (hmarked hstart)
  | some first =>
    obtain ⟨n, l, isNowdoc⟩ := first
    have hl := word_of_heredocStart hstart
    have hstart' (hn : mark + n + 2 ≤ p.length) :
        heredocStart ((p ++ y).drop mark) = some (n, l, isNowdoc) := by
      rw [hdrop] at hstart ⊢
      exact heredocStart_append hstart (by rw [List.length_drop]; omega) y
    cases isNowdoc with
    | true =>
      rw [scanHeredoc_nowdoc hstart] at hends ⊢
      cases hm : nowdocLength l ((p ++ x).drop (mark + n)) with
      | none =>
        rw [hm] at hends
        exact absurd rfl (hends _ rfl).known
      | some m =>
        rw [hm] at hends
        have hle : mark + n + m ≤ p.length := (hends _ rfl).length_le
        have htwo := two_le_nowdocLength hl hm
        have hdrop' (x : List Char) : (p ++ x).drop (mark + n) = _ ++ x :=
          drop_append (by omega) x
        rw [hdrop'] at hm
        rw [scanHeredoc_nowdoc (hstart' (by omega)), hdrop',
          nowdocLength_append hl hy hm (by rw [List.length_drop]; omega)]
    | false =>
      rw [scanHeredoc_heredoc hstart] at hends ⊢
      have hends := hends _ rfl
      have hle := start_le_of_ends hends
      -- The first line ends within `p`, since the heredoc closes there or goes on beyond it.
      have hn : mark + n + 2 ≤ p.length := by
        obtain ⟨m, hm, hend, -⟩ | ⟨hnone, ho⟩ := scanTemplate_cases hends
        · have := two_le_closing hl hm
          omega
        · have := ho.two_le hnone
          rw [List.length_drop] at this
          omega
      rw [scanHeredoc_heredoc (hstart' hn),
        scanTemplate_append (q := .heredoc l) hl hy ⟨by decide, by decide⟩ hends]

lemma three_le_of_heredocStart {l : List Char} {b : Bool} (h : heredocStart s = some (n, l, b)) :
    3 ≤ n := by
  obtain ⟨-, -, -, -, -, -, -, -, rfl, -⟩ := heredocStart_eq_some_iff.mp h
  omega

section

variable {mark : Nat}

lemma scanString_single (h : s.drop mark = '\'' :: r) : scanString modes mark s =
    match singleLength r with
    | some n => some ⟨.singleQuoted, mark + 1 + n, modes⟩
    | none => some ⟨.unknown, 1, modes⟩ := by
  rw [scanString, h]
  rfl

lemma scanString_double (h : s.drop mark = '"' :: r) : scanString modes mark s =
    some (scanTemplate modes (.mark '"') .doubleQuoted (mark + 1) s) := by
  rw [scanString, h]
  rfl

lemma scanString_heredoc (h : s.drop mark = '<' :: r) :
    scanString modes mark s = scanHeredoc modes mark s := by
  rw [scanString, h]
  rfl

def opening : List Char := ['\'', '"', '<']

lemma scanString_none (h : ∀ c ∈ (s.drop mark).head?, c ∉ opening) :
    scanString modes mark s = none := by
  rw [scanString]
  split
  · next heq => exact absurd (by decide) (h '\'' (by rw [heq]; rfl))
  · next heq => exact absurd (by decide) (h '"' (by rw [heq]; rfl))
  · next heq => exact absurd (by decide) (h '<' (by rw [heq]; rfl))
  · rfl

lemma mark_lt_length (hk : k ∈ scanString modes mark s) (hknown : k.kind ≠ .unknown) :
    mark < k.length := by
  rw [Option.mem_def, scanString] at hk
  split at hk
  · split at hk <;> cases hk
    · dsimp only
      omega
    · exact absurd rfl hknown
  · cases hk
    exact start_le_length hknown
  · cases hstart : heredocStart (s.drop mark) with
    | none =>
      rw [scanHeredoc_none hstart] at hk
      cases hk
    | some first =>
      obtain ⟨n, l, isNowdoc⟩ := first
      have := three_le_of_heredocStart hstart
      cases isNowdoc with
      | true =>
        rw [scanHeredoc_nowdoc hstart] at hk
        split at hk <;> cases hk
        · dsimp only
          omega
        · exact absurd rfl hknown
      | false =>
        rw [scanHeredoc_heredoc hstart] at hk
        cases hk
        have := start_le_length hknown
        omega
  · cases hk

lemma scanString_append (hy : Stops y) (hmark : mark ≤ p.length)
    (hmarked : Marked ((p ++ x).drop mark) (p.drop mark))
    (hends : ∀ k ∈ scanString modes mark (p ++ x), Ends k p x y) :
    scanString modes mark (p ++ y) = scanString modes mark (p ++ x) := by
  have hdrop (x : List Char) := drop_append hmark x
  cases hp : p.drop mark with
  | nil =>
    -- The mark ends `p`, and no string starts with the character behind it.
    have hx : scanString modes mark (p ++ x) = none := by
      rw [Option.eq_none_iff_forall_ne_some]
      intro k hk
      have hlt := mark_lt_length hk (hends k hk).known
      have hle := (hends k hk).length_le
      rw [List.drop_eq_nil_iff] at hp
      omega
    rw [hx, scanString_none]
    rw [hdrop, hp, List.nil_append]
    obtain ⟨d, s, rfl⟩ := hy.exists_cons
    intro c hc
    obtain rfl : d = c := by simpa using hc
    have hsingle : d ≠ '\'' := hy.ne (by decide) (by decide)
    have hdouble : d ≠ '"' := hy.ne (by decide) (by decide)
    have hangle : d ≠ '<' := hy.ne (by decide) (by decide)
    simp [opening, hsingle, hdouble, hangle]
  | cons c r =>
    have hcons (x : List Char) : (p ++ x).drop mark = c :: (r ++ x) := by
      rw [hdrop, hp, List.cons_append]
    by_cases hc : c ∈ opening
    · simp only [opening, List.mem_cons, List.not_mem_nil, or_false] at hc
      obtain rfl | rfl | rfl := hc
      · -- A string in single quotes has to end within `p`.
        have hlength : r.length + 1 + mark = p.length := by
          have := congrArg List.length hp
          rw [List.length_drop, List.length_cons] at this
          omega
        rw [scanString_single (hcons x)] at hends ⊢
        rw [scanString_single (hcons y)]
        cases hn : singleLength (r ++ x) with
        | none =>
          rw [hn] at hends
          exact absurd rfl (hends _ rfl).known
        | some n =>
          rw [hn] at hends
          have hle : mark + 1 + n ≤ p.length := (hends _ rfl).length_le
          rw [singleLength_append hn (by omega)]
      · rw [scanString_double (hcons x)] at hends ⊢
        rw [scanString_double (hcons y), scanTemplate_append (q := .mark '"') (.inl rfl) hy
          ⟨by decide, by decide⟩ (hends _ rfl)]
      · rw [scanString_heredoc (hcons x)] at hends ⊢
        rw [scanString_heredoc (hcons y), scanHeredoc_append hy hmark hmarked hends]
    · have hnone (x : List Char) : scanString modes mark (p ++ x) = none := by
        refine scanString_none fun d hd => ?_
        rw [hcons] at hd
        obtain rfl : c = d := by simpa using hd
        exact hc
      rw [hnone, hnone]

/-- A string after `mark` characters, or what there is instead. -/
lemma scanString_getD_append {other other' : Scan} (hy : Stops y) (hmark : mark ≤ p.length)
    (hmarked : Marked ((p ++ x).drop mark) (p.drop mark))
    (hends : Ends ((scanString modes mark (p ++ x)).getD other) p x y)
    (hother : Ends other p x y → other' = other) :
    (scanString modes mark (p ++ y)).getD other' =
      (scanString modes mark (p ++ x)).getD other := by
  have hstring : scanString modes mark (p ++ y) = scanString modes mark (p ++ x) := by
    refine scanString_append hy hmark hmarked fun k hk => ?_
    rw [Option.mem_def] at hk
    rwa [hk] at hends
  rw [hstring]
  cases hk : scanString modes mark (p ++ x) with
  | some k => rfl
  | none =>
    rw [hk] at hends
    exact hother hends

end

/-! ### Tokens of code -/

lemma takeWhile_isWordPart_append (hy : Stops y)
    (h : ((p ++ x).takeWhile isWordPart).length ≤ p.length) :
    (p ++ y).takeWhile isWordPart = (p ++ x).takeWhile isWordPart := by
  refine takeWhile_stops (fun c s hs => ?_) h
  rw [hs] at hy
  exact hy.isWordPart_eq_false

lemma scanWord_append (hy : Stops y) (hp : p ≠ [])
    (hmarked : ∀ c ∈ p.head?, c = 'b' ∨ c = 'B' → Marked ((p ++ x).drop 1) (p.drop 1))
    (hends : Ends (scanWord modes (p ++ x)) p x y) :
    scanWord modes (p ++ y) = scanWord modes (p ++ x) := by
  obtain ⟨c, r, rfl⟩ := List.exists_cons_of_ne_nil hp
  have hword (h : ((c :: r ++ x).takeWhile isWordPart).length ≤ (c :: r).length) :=
    takeWhile_isWordPart_append hy h
  rw [List.cons_append, scanWord] at hends ⊢
  rw [List.cons_append, scanWord]
  split
  · next hb =>
    rw [if_pos hb] at hends
    refine scanString_getD_append (p := c :: r) hy (by simp)
      (hmarked c rfl (by simpa using hb)) hends fun hends => ?_
    have := hword hends.length_le
    rw [List.cons_append, List.cons_append] at this
    rw [this]
  · next hb =>
    rw [if_neg hb] at hends
    have := hword hends.length_le
    rw [List.cons_append, List.cons_append] at this
    rw [this]

lemma scanCommand_append (hends : Ends (scanCommand modes (c :: r ++ x)) (c :: r) x y) :
    scanCommand modes (c :: r ++ y) = scanCommand modes (c :: r ++ x) := by
  have hknown := hends.known
  rw [scanCommand] at hknown
  split at hknown
  · exact absurd rfl hknown
  · next hlength =>
    have hopen : scanCommand modes (c :: r ++ x) =
        ⟨.templateOpen, 1, .template (.mark '\x60') :: modes⟩ := by
      rw [scanCommand, if_neg hlength]
    rw [hopen] at hends ⊢
    have ho : Opens (.mark '\x60') r x y := hends.opens _ modes rfl rfl
    rw [scanCommand, if_neg]
    have hlt := ho.lt
    rw [← ho.plain_eq] at hlt
    simp only [List.cons_append, List.length_cons, List.length_append, List.tail_cons]
    omega

lemma two_le_numberLength (hc : c.isDigit = true) (s : List Char) :
    2 ≤ numberLength ('.' :: c :: s) := by
  have hdigits := digitsLength_pos hc s
  have hwhole : digitsLength Char.isDigit ('.' :: c :: s) = 0 :=
    digitsLength_of_eq_false (by decide) _
  have hdecimal : 2 ≤ decimalLength ('.' :: c :: s) := by
    rw [decimalLength_eq, hwhole, List.drop_zero, fractionLength]
    rw [if_neg] <;> omega
  rw [numberLength, hwhole, if_pos (by omega)]
  exact Nat.le_trans hdecimal (Nat.le_max_left _ _)

lemma isWordPart_of_isWordStart (h : isWordStart c = true) : isWordPart c = true := by
  simp [isWordPart, h]

lemma startsWord_eq (s : List Char) : startsWord s = s.head?.any isWordStart := by
  cases s <;> rfl

/-- Nothing that starts with a character of words starts where `p` ends. -/
lemma any_head?_append {f : Char → Bool} (hy : Stops y) (hf : ∀ c, f c = true → isWordPart c = true)
    (hx : r = [] → ∀ e ∈ x.head?, f e ≠ true) :
    (r ++ y).head?.any f = (r ++ x).head?.any f := by
  cases r with
  | cons d r => rfl
  | nil =>
    obtain ⟨d, s, rfl⟩ := hy.exists_cons
    have hd : f d = false := hy.eq_false fun c => hf c
    have hnone : x.head?.any f = false := by
      rw [Bool.eq_false_iff, Ne, Option.any_eq_true]
      rintro ⟨e, he, hf⟩
      exact hx rfl e he hf
    exact Eq.trans hd hnone.symm

/-- A name that starts beyond `p` belongs to no dollar sign within. -/
lemma startsWord_append (hy : Stops y)
    (h : startsWord (r ++ x) = true → ((r ++ x).takeWhile isWordPart).length ≤ r.length) :
    startsWord (r ++ y) = startsWord (r ++ x) := by
  rw [startsWord_eq, startsWord_eq]
  refine any_head?_append hy (fun _ => isWordPart_of_isWordStart) ?_
  rintro rfl e hx he
  obtain ⟨x, rfl⟩ := List.head?_eq_some_iff.mp hx
  have := h he
  rw [List.nil_append, List.takeWhile_cons, isWordPart_of_isWordStart he] at this
  simp at this

lemma head?_isDigit_append (hy : Stops y)
    (h : (r ++ x).head?.any Char.isDigit = true → numberLength ('.' :: (r ++ x)) ≤ r.length + 1) :
    (r ++ y).head?.any Char.isDigit = (r ++ x).head?.any Char.isDigit := by
  refine any_head?_append hy (fun _ => isWordPart_of_isDigit) ?_
  rintro rfl e hx he
  obtain ⟨x, rfl⟩ := List.head?_eq_some_iff.mp hx
  have hlength : numberLength ('.' :: e :: x) ≤ 1 := h he
  have := two_le_numberLength he x
  omega

lemma scanCode_append (hy : Stops y) (hp : p ≠ []) (hcode : Marked (p ++ x) p)
    (hmarked : ∀ c ∈ p.head?, c = 'b' ∨ c = 'B' → Marked ((p ++ x).drop 1) (p.drop 1))
    (hends : Ends (scanCode modes (p ++ x)) p x y) :
    scanCode modes (p ++ y) = scanCode modes (p ++ x) := by
  obtain ⟨c, r, rfl⟩ := List.exists_cons_of_ne_nil hp
  rw [List.cons_append, scanCode] at hends ⊢
  rw [List.cons_append, scanCode]
  by_cases hword : isWordStart c = true
  · rw [if_pos hword] at hends
    rw [if_pos hword, if_pos hword]
    exact scanWord_append hy hp hmarked hends
  rw [if_neg hword] at hends
  rw [if_neg hword, if_neg hword]
  -- A dollar sign, with what stands behind it.
  have hname : (c == '$' && startsWord (r ++ y)) = (c == '$' && startsWord (r ++ x)) := by
    cases hc : c == '$' with
    | false => rfl
    | true =>
      refine startsWord_append hy fun hstart => ?_
      rw [if_pos (by simp [hc, hstart])] at hends
      simpa using hends.length_le
  rw [hname]
  split
  · next hvariable =>
    rw [if_pos hvariable] at hends
    rw [takeWhile_isWordPart_append hy (by simpa using hends.length_le)]
  next hvariable =>
  rw [if_neg hvariable] at hends
  -- A digit, or a point before one.
  have hpoint : (c.isDigit || (c == '.' && (r ++ y).head?.any Char.isDigit)) =
      (c.isDigit || (c == '.' && (r ++ x).head?.any Char.isDigit)) := by
    cases hc : c == '.' with
    | false => rfl
    | true =>
      rw [Bool.true_and, Bool.true_and, head?_isDigit_append hy fun hdigit => ?_]
      rw [if_pos (by rw [hc, hdigit]; simp)] at hends
      obtain rfl : c = '.' := by simpa using hc
      exact hends.length_le
  rw [hpoint]
  split
  · next hnumber =>
    rw [if_pos hnumber] at hends
    rw [← List.cons_append, ← List.cons_append, settled_numberLength hy hends.length_le]
  next hnumber =>
  rw [if_neg hnumber] at hends
  split
  · next hcommand =>
    rw [if_pos hcommand] at hends
    exact scanCommand_append hends
  next hcommand =>
  rw [if_neg hcommand] at hends
  exact scanString_getD_append (p := c :: r) hy (Nat.zero_le _) hcode hends fun hends =>
    scanSymbol_stops hp hy hends.known hends.length_le

/-! ### Tokens in strings -/

lemma scanInside_closing (h : q.closing s = some n) :
    scanInside modes q s = ⟨.templateClose, n, modes.tail⟩ := by rw [scanInside.eq_def, h]

lemma opensExpression_cases (h : opensExpression s = true) :
    (∃ r, s = '$' :: '\x7b' :: r) ∨ (∃ r, s = '\x7b' :: '$' :: r) ∨
      ∃ c r, s = '$' :: c :: r ∧ startsVariable c = true ∧ c ≠ '\x7b' := by
  rw [opensExpression.eq_def] at h
  split at h
  · next c r =>
    by_cases hc : c = '\x7b'
    · exact .inl ⟨r, by rw [hc]⟩
    · exact .inr (.inr ⟨c, r, rfl, by simpa [hc] using h, hc⟩)
  · next r => exact .inr (.inl ⟨r, rfl⟩)
  · cases h

lemma scanInside_plain (hclosing : q.closing s = none) (hopens : opensExpression s = false)
    (hs : s ≠ []) : scanInside modes q s = ⟨.templateText, max 1 (q.plainLength s), modes⟩ := by
  rw [scanInside.eq_def, hclosing]
  dsimp only
  split
  · exact absurd rfl hs
  · cases hopens
  · cases hopens
  · next r _ =>
    rw [if_neg]
    intro hr
    rcases r with _ | ⟨c, r⟩
    · cases hr
    · have hc : startsVariable c = true := hr
      simp [opensExpression, hc] at hopens
  · rfl

lemma plainLength_pos (h : q.stops s = false) (hs : s ≠ []) : 0 < q.plainLength s := by
  obtain ⟨c, s, rfl⟩ := List.exists_cons_of_ne_nil hs
  by_cases hc : c = '\\'
  · subst hc
    rcases s with _ | ⟨d, s⟩
    · rw [Quote.plainLength]
      · rw [if_neg]
        · omega
        · rw [← Quote.stops, h]
          simp
      · simp
    · rw [plainLength_slash]
      split <;> omega
  · rw [plainLength_cons hc, h]
    simp

lemma scanInside_text (h : q.stops s = false) (hs : s ≠ []) :
    scanInside modes q s = ⟨.templateText, q.plainLength s, modes⟩ := by
  have hmax := Nat.max_eq_right (plainLength_pos h hs)
  rw [Quote.stops, Bool.or_eq_false_iff, Option.isSome_eq_false_iff,
    Option.isNone_iff_eq_none] at h
  rw [scanInside_plain h.1 h.2 hs, hmax]

lemma scanInside_variable (hclosing : q.closing ('$' :: c :: s) = none)
    (hc : startsVariable c = true) (hbrace : c ≠ '\x7b') : scanInside modes q ('$' :: c :: s) =
      ⟨.variableName, ((c :: s).takeWhile isWordPart).length + 1, .afterVariable :: modes⟩ := by
  rw [scanInside.eq_def, hclosing]
  simp [hbrace, hc]

/-- The first two characters tell which expression starts in a string. -/
lemma scanInside_opens {a b : Char} {s' : List Char} (hclosing : q.closing (a :: b :: s) = none)
    (hclosing' : q.closing (a :: b :: s') = none) (hopens : opensExpression (a :: b :: s) = true)
    (hword : a = '$' → b ≠ '\x7b' →
      (b :: s').takeWhile isWordPart = (b :: s).takeWhile isWordPart) :
    scanInside modes q (a :: b :: s') = scanInside modes q (a :: b :: s) := by
  obtain ⟨r, hr⟩ | ⟨r, hr⟩ | ⟨c, r, hr, hc, hbrace⟩ := opensExpression_cases hopens
  · cases hr
    rw [scanInside.eq_def, scanInside.eq_def, hclosing, hclosing']
    rfl
  · cases hr
    rw [scanInside.eq_def, scanInside.eq_def, hclosing, hclosing']
    rfl
  · cases hr
    rw [scanInside_variable hclosing hc hbrace, scanInside_variable hclosing' hc hbrace,
      hword rfl hbrace]

lemma exists_modes_of_opens (modes : List Mode) (hclosing : q.closing s = none)
    (hopens : opensExpression s = true) :
    ∃ m, (scanInside modes q s).modes = m :: modes := by
  obtain ⟨r, rfl⟩ | ⟨r, rfl⟩ | ⟨c, r, rfl, hc, hbrace⟩ := opensExpression_cases hopens
  · exact ⟨.block, by rw [scanInside.eq_def, hclosing]; rfl⟩
  · exact ⟨.block, by rw [scanInside.eq_def, hclosing]; rfl⟩
  · exact ⟨.afterVariable, by rw [scanInside_variable hclosing hc hbrace]⟩

lemma kind_of_opens (modes : List Mode) (hclosing : q.closing s = none)
    (hopens : opensExpression s = true) : (scanInside modes q s).kind ≠ .templateText := by
  obtain ⟨r, rfl⟩ | ⟨r, rfl⟩ | ⟨c, r, rfl, hc, hbrace⟩ := opensExpression_cases hopens
  · rw [scanInside.eq_def, hclosing]
    simp
  · rw [scanInside.eq_def, hclosing]
    simp
  · rw [scanInside_variable hclosing hc hbrace]
    simp

/-- A token in a string ends it, opens an expression, or is plain text. -/
lemma scanInside_cases (modes : List Mode) (hs : s ≠ []) :
    (∃ n, q.closing s = some n ∧ scanInside modes q s = ⟨.templateClose, n, modes.tail⟩) ∨
      (q.closing s = none ∧ opensExpression s = true) ∨
      (q.stops s = false ∧ scanInside modes q s = ⟨.templateText, q.plainLength s, modes⟩) := by
  cases hclosing : q.closing s with
  | some n => exact .inl ⟨n, rfl, scanInside_closing hclosing⟩
  | none =>
    cases hopens : opensExpression s with
    | true => exact .inr (.inl ⟨rfl, rfl⟩)
    | false =>
      have hstops : q.stops s = false := by rw [Quote.stops, hclosing, hopens]; rfl
      exact .inr (.inr ⟨hstops, scanInside_text hstops hs⟩)

/-- No string closes at what starts an expression in it. -/
lemma closing_of_opens {a : Char} {s' : List Char} (hopens : opensExpression (a :: s) = true)
    (hclosing : q.closing (a :: s) = none) : q.closing (a :: s') = none := by
  cases q with
  | mark d => rwa [closing_mark] at hclosing ⊢
  | heredoc l =>
    have ha : a = '$' ∨ a = '\x7b' := by
      obtain ⟨r, hr⟩ | ⟨r, hr⟩ | ⟨c, r, hr, -⟩ := opensExpression_cases hopens <;>
        simp [(List.cons.inj hr).1]
    rw [Option.eq_none_iff_forall_ne_some]
    intro n hn
    obtain ⟨e, r, k, rfl | rfl, hr, -⟩ := closing_heredoc_eq_some_iff.mp hn
    · rw [(List.cons.inj hr).1] at ha
      exact absurd ha (by decide)
    · rw [(List.cons.inj hr).1] at ha
      exact absurd ha (by decide)

lemma plainLength_within (hq : q.Proper) (hp : p ≠ []) (hstops : q.stops (p ++ x) = false)
    (h : q.plainLength (p ++ x) = n) (hn : n < p.length) (hy : q.stops (p.drop n ++ y) = true) :
    q.plainLength (p ++ y) = n ∧ q.stops (p ++ y) = false := by
  obtain ⟨c, r, hr⟩ := List.exists_cons_of_ne_nil (l := p.drop n) (by simpa using hn)
  have hsplit (x : List Char) : p ++ x = p.take n ++ c :: (r ++ x) := by
    rw [← List.cons_append, ← hr, ← List.append_assoc, List.take_append_drop]
  have htake : (p.take n).length = n := by rw [List.length_take]; omega
  have hpos := plainLength_pos hstops (by simp [hp])
  have hne : p.take n ≠ [] := by
    rw [Ne, ← List.length_eq_zero_iff, htake]
    omega
  have hx : q.stops (c :: (r ++ x)) = true := by
    obtain ⟨-, hdrop | hdrop⟩ := plainLength_le q (p ++ x)
    · rw [List.drop_eq_nil_iff, List.length_append] at hdrop
      omega
    · rwa [h, List.drop_append_of_le_length hn.le, hr] at hdrop
  rw [hr, List.cons_append] at hy
  rw [hsplit] at h hstops ⊢
  exact ⟨(plainLength_append hq hx hy (h.trans htake.symm)).trans htake,
    not_stops_append hq hx hne hstops⟩

lemma scanInside_append (hq : q.Proper) (hy : Stops y) (hp : p ≠ [])
    (hends : Ends (scanInside (.template q :: modes) q (p ++ x)) p x y) :
    scanInside (.template q :: modes) q (p ++ y) =
      scanInside (.template q :: modes) q (p ++ x) := by
  obtain ⟨n, hclosing, -⟩ | ⟨hclosing, hopens⟩ | ⟨hstops, htext⟩ :=
    scanInside_cases (q := q) (.template q :: modes) (List.append_ne_nil_of_left_ne_nil hp x)
  · rw [scanInside_closing hclosing] at hends ⊢
    rw [scanInside_closing (closing_append hq hy hclosing hends.length_le)]
  · obtain ⟨m, hm⟩ := exists_modes_of_opens (.template q :: modes) hclosing hopens
    have hlt := hends.length_lt fun h => by
      rw [hm] at h
      exact absurd (h (.template q) (by simp)) (by simp)
    have hpos := hends.pos
    obtain ⟨a, b, r, rfl⟩ : ∃ a b r, p = a :: b :: r := by
      rcases p with _ | ⟨a, _ | ⟨b, r⟩⟩
      · exact absurd rfl hp
      · rw [List.length_singleton] at hlt
        omega
      · exact ⟨a, b, r, rfl⟩
    simp only [List.cons_append] at hclosing hopens hends ⊢
    refine scanInside_opens hclosing (closing_of_opens hopens hclosing) hopens ?_
    rintro rfl hbrace
    have hb : startsVariable b = true := by simpa [opensExpression, hbrace] using hopens
    rw [scanInside_variable hclosing hb hbrace] at hends
    exact takeWhile_isWordPart_append (p := b :: r) hy (by simpa using hends.length_le)
  · rw [htext] at hends ⊢
    have hlt := hends.length_lt fun h => absurd (h (.template q) (by simp)) (by simp)
    obtain ⟨hplain, hnone⟩ := plainLength_within hq hp hstops rfl hlt (hends.stops q modes rfl rfl)
    rw [scanInside_text hnone (List.append_ne_nil_of_left_ne_nil hp y), hplain]

/-- The index or member access right after a variable in a string. -/
def variableStep (modes : List Mode) : List Char → Option Scan
  | '[' :: _ => some ⟨.symbol, 1, .index :: modes⟩
  | '-' :: '>' :: c :: _ => if isWordStart c then some ⟨.symbol, 2, .member :: modes⟩ else none
  | '?' :: '-' :: '>' :: c :: _ =>
    if isWordStart c then some ⟨.symbol, 3, .member :: modes⟩ else none
  | _ => none

lemma scan_afterVariable (modes : List Mode) (s : List Char) :
    scan (.afterVariable :: modes) s = (variableStep modes s).getD (scan modes s) := by
  fun_cases variableStep modes s with
  | case1 => rw [scan]; rfl
  | case2 c s hc => rw [scan, if_pos hc]; rfl
  | case3 c s hc => rw [scan, if_neg hc]; rfl
  | case4 c s hc => rw [scan, if_pos hc]; rfl
  | case5 c s hc => rw [scan, if_neg hc]; rfl
  | case6 h1 h2 h3 =>
    rw [scan]
    · rfl
    all_goals assumption

/-- The step is told from its own characters and the one behind them. -/
lemma variableStep_split (h : variableStep modes s = some k) : ∃ u r, s = u ++ r ∧
    u.length ≤ k.length + 1 ∧ ¬ InBlocks k.modes ∧
    (∀ c ∈ u.tail, isSpace c = false ∧ c ≠ '/') ∧ ∀ r, variableStep modes (u ++ r) = some k := by
  have hword {c : Char} (hc : isWordStart c = true) : isSpace c = false ∧ c ≠ '/' := by
    refine ⟨isSpace_of_isWordStart hc, ?_⟩
    rintro rfl
    exact absurd hc (by decide)
  have hopen {m : Mode} (hm : m ≠ .block) : ¬ InBlocks (m :: modes) := fun h => hm (h m (by simp))
  fun_cases variableStep modes s with
  | case1 s =>
    -- An index: its bracket settles it.
    cases h
    exact ⟨['['], s, rfl, by simp, hopen (by decide), by simp, fun r => rfl⟩
  | case2 c s hc =>
    -- A member access is settled by the first letter of the member.
    rw [variableStep, if_pos hc] at h
    cases h
    refine ⟨['-', '>', c], s, rfl, by simp, hopen (by decide), ?_,
      fun r => by simp [variableStep, hc]⟩
    simpa using ⟨by decide, hword hc⟩
  | case3 c s hc =>
    rw [variableStep, if_neg hc] at h
    cases h
  | case4 c s hc =>
    rw [variableStep, if_pos hc] at h
    cases h
    refine ⟨['?', '-', '>', c], s, rfl, by simp, hopen (by decide), ?_,
      fun r => by simp [variableStep, hc]⟩
    simpa using ⟨by decide, by decide, hword hc⟩
  | case5 c s hc =>
    rw [variableStep, if_neg hc] at h
    cases h
  | case6 h1 h2 h3 =>
    rw [variableStep] at h
    · cases h
    all_goals assumption

lemma variableStep_append (hy : Stops y) (hp : p ≠ [])
    (h : ∀ k ∈ variableStep modes (p ++ x), k.length < p.length) :
    variableStep modes (p ++ y) = variableStep modes (p ++ x) := by
  cases hx : variableStep modes (p ++ x) with
  | some k =>
    have hlt := h k hx
    obtain ⟨u, r, hs, hu, -, -, hall⟩ := variableStep_split hx
    obtain ⟨p', rfl, -⟩ := append_split hs.symm (by omega)
    rw [List.append_assoc, hall]
  | none =>
    rw [Option.eq_none_iff_forall_ne_some] at hx ⊢
    intro k hk
    obtain ⟨u, r, hs, -, -, htail, hall⟩ := variableStep_split hk
    obtain ⟨p', rfl, -⟩ | ⟨u', rfl, hu⟩ := List.append_eq_append_iff.mp hs.symm
    · exact hx k (by rw [List.append_assoc, hall])
    · rcases u' with _ | ⟨d, u'⟩
      · exact hx k (by simpa using hall x)
      · -- The step would go on with what `y` starts with.
        rw [hu] at hy
        have hd := htail d (by rw [List.tail_append_of_ne_nil hp]; simp)
        obtain hspace | hslash := hy
        · rw [hd.1] at hspace
          cases hspace
        · exact hd.2 hslash

/-- The next token is one of code, unless a variable in a string goes on. -/
def inCode : List Mode → Bool
  | .afterVariable :: modes => inCode modes
  | .template _ :: _ | .member :: _ => false
  | _ => true

/-- **A token that ends within `p`.** -/
lemma scan_append (hm : ∀ q, .template q ∈ modes → q.Proper) (hy : Stops y) (hp : p ≠ [])
    (hcode : inCode modes = true → Marked (p ++ x) p)
    (hmarked : inCode modes = true →
      ∀ c ∈ p.head?, c = 'b' ∨ c = 'B' → Marked ((p ++ x).drop 1) (p.drop 1))
    (hends : Ends (scan modes (p ++ x)) p x y) : scan modes (p ++ y) = scan modes (p ++ x) := by
  induction modes with
  | nil =>
    rw [scan_inBlocks (by simp [InBlocks])] at hends ⊢
    rw [scan_inBlocks (by simp [InBlocks])]
    exact scanCode_append hy hp (hcode rfl) (hmarked rfl) hends
  | cons m modes ih =>
    have ih := ih (fun q hq => hm q (List.mem_cons_of_mem _ hq))
    cases m with
    | block | index =>
      rw [scan] at hends ⊢
      rw [scan]
      · exact scanCode_append hy hp (hcode rfl) (hmarked rfl) hends
      all_goals simp
    | template q =>
      rw [scan] at hends ⊢
      rw [scan]
      exact scanInside_append (hm q (by simp)) hy hp hends
    | member =>
      rw [scan] at hends ⊢
      rw [scan, takeWhile_isWordPart_append hy hends.length_le]
    | afterVariable =>
      rw [scan_afterVariable] at hends ⊢
      rw [scan_afterVariable]
      -- A step that is settled by what follows `p` would end beyond it.
      have hstep : variableStep modes (p ++ y) = variableStep modes (p ++ x) := by
        refine variableStep_append hy hp fun k hk => ?_
        obtain ⟨-, -, -, -, hopen, -⟩ := variableStep_split hk
        rw [Option.mem_def.mp hk] at hends
        exact hends.length_lt hopen
      rw [hstep]
      cases hk : variableStep modes (p ++ x) with
      | some k => rfl
      | none =>
        rw [hk] at hends
        exact ih hcode hmarked hends

end EloquentEntity.Syntax

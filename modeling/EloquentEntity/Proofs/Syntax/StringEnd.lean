import EloquentEntity.Proofs.Syntax.TokenEnd

/-!
Where strings end.

A string's length, if it stays within `p` on `p ++ x`, is the same on `p ++ y` for a `y` that starts
with white space or a slash. The plain characters of a string in which expressions stand go on to
a character that is neither horizontal white space nor part of a word. So no closing line of a
heredoc is found or missed before it, whatever comes behind it.
-/

namespace EloquentEntity.Syntax

variable {p r s t x y z z' l : List Char} {c : Char} {q : Quote} {modes : List Mode} {n m : Nat}

/-! ### Single quotes -/

lemma singleLength_pos (h : singleLength s = some n) : 0 < n := by
  fun_cases singleLength s with
  | case1 => cases h
  | case2 =>
    rw [singleLength] at h
    cases h
    exact Nat.one_pos
  | case3 =>
    simp only [singleLength, Option.map_eq_some_iff] at h
    omega
  | case4 c s hquote hpair =>
    rw [singleLength] at h
    · simp only [Option.map_eq_some_iff] at h
      omega
    · exact hquote
    · exact hpair

lemma singleLength_cons (hquote : c ≠ '\'') (hslash : c ≠ '\\') (s : List Char) :
    singleLength (c :: s) = (singleLength s).map (· + 1) := by
  rw [singleLength] <;> simp [hquote, hslash]

lemma singleLength_append (h : singleLength (p ++ x) = some n) (hn : n ≤ p.length) :
    singleLength (p ++ y) = some n := by
  fun_induction singleLength p generalizing n with
  | case1 =>
    have := singleLength_pos h
    rw [List.length_nil] at hn
    omega
  | case2 p => simpa [singleLength] using h
  | case3 c p ih =>
    simp only [List.cons_append, singleLength, Option.map_eq_some_iff] at h ⊢
    obtain ⟨k, hk, rfl⟩ := h
    exact ⟨k, ih hk (by simpa using hn), rfl⟩
  | case4 c p hquote hpair ih =>
    by_cases hslash : c = '\\'
    · -- The backslash ends `p` and takes a character of `x` with it.
      obtain rfl : p = [] := by
        cases p with
        | nil => rfl
        | cons d p => exact absurd rfl (hpair d p hslash)
      subst hslash
      rcases x with _ | ⟨d, x⟩
      · cases h
      · simp only [List.cons_append, List.nil_append, singleLength, Option.map_eq_some_iff] at h
        simp only [List.length_singleton] at hn
        omega
    · rw [List.cons_append, singleLength_cons hquote hslash, Option.map_eq_some_iff] at h ⊢
      obtain ⟨k, hk, rfl⟩ := h
      exact ⟨k, ih hk (by simpa using hn), rfl⟩

/-! ### Splitting a text in two ways -/

lemma append_split {α : Type} {s r p x : List α} (h : s ++ r = p ++ x) (hs : s.length ≤ p.length) :
    ∃ p', p = s ++ p' ∧ r = p' ++ x := by
  obtain ⟨p', rfl, hr⟩ | ⟨s', rfl, hx⟩ := List.append_eq_append_iff.mp h
  · exact ⟨p', rfl, hr⟩
  · rw [List.length_append] at hs
    obtain rfl : s' = [] := List.length_eq_zero_iff.mp (by omega)
    exact ⟨[], by simp, by simpa using hx.symm⟩

/-- What does without the character at which the second part of a text starts. -/
lemma append_split_of_notMem (h : s ++ r = t ++ c :: z) (hc : c ∉ s) :
    ∃ t', t = s ++ t' ∧ r = t' ++ c :: z := by
  obtain ⟨t', rfl, hr⟩ | ⟨s', rfl, hz⟩ := List.append_eq_append_iff.mp h
  · exact ⟨t', rfl, hr⟩
  · rcases s' with _ | ⟨d, s'⟩
    · exact ⟨[], by simp, by simpa using hz.symm⟩
    · obtain ⟨rfl, -⟩ := List.cons.inj hz
      simp at hc

/-! ### What closes a string -/

/-- A double quote, a backquote, or a heredoc's label. -/
def Quote.Proper : Quote → Prop
  | .mark c => c = '"' ∨ c = '\x60'
  | .heredoc l => IsWord l

/-- No closing line goes on with the character. -/
def Breaks (c : Char) : Prop := isHorizontal c = false ∧ isWordPart c = false

def WordEnds (s : List Char) : Prop := ∀ c ∈ s.head?, isWordPart c = false

lemma wordEnds_iff : WordEnds s ↔ (!s.head?.any isWordPart) = true := by
  cases s <;> simp [WordEnds]

lemma Stops.wordEnds (h : Stops y) (hx : WordEnds (p ++ x)) : WordEnds (p ++ y) := by
  rcases p with _ | ⟨c, p⟩
  · obtain ⟨c, s, rfl⟩ := h.exists_cons
    intro d hd
    obtain rfl : c = d := by simpa using hd
    exact h.isWordPart_eq_false
  · exact hx

lemma isHorizontal_of_isWordPart (h : isWordPart c = true) : isHorizontal c = false := by
  rw [Bool.eq_false_iff]
  intro hc
  obtain rfl | rfl : c = ' ' ∨ c = '\t' := by simpa [isHorizontal] using hc
  · exact absurd h (by decide)
  · exact absurd h (by decide)

lemma IsWord.head_cons (h : IsWord l) : ∃ c w, l = c :: w ∧ isWordStart c = true := by
  cases l with
  | nil => cases h.1
  | cons c w => exact ⟨c, w, rfl, h.1⟩

/-- A closing line: blanks, the label, and no word that goes on. -/
lemma closingLength_eq_some_iff (hl : IsWord l) : closingLength l s = some n ↔
    ∃ blanks rest, s = blanks ++ (l ++ rest) ∧ blanks.all isHorizontal = true ∧ WordEnds rest ∧
      n = blanks.length + l.length := by
  rw [closingLength]
  constructor
  · intro h
    split at h
    · next hcond =>
      simp only [Bool.and_eq_true, List.isPrefixOf_iff_prefix] at hcond
      obtain ⟨⟨rest, hrest⟩, hends⟩ := hcond
      rw [← hrest, List.drop_left, ← wordEnds_iff] at hends
      refine ⟨s.takeWhile isHorizontal, rest, ?_, List.all_takeWhile, hends, by simpa using h.symm⟩
      rw [hrest]
      exact (List.prefix_iff_eq_append.mp (List.takeWhile_prefix _)).symm
    · cases h
  · rintro ⟨blanks, rest, rfl, hblanks, hrest, rfl⟩
    obtain ⟨c, w, rfl, hc⟩ := hl.head_cons
    have htake : (blanks ++ (c :: w ++ rest)).takeWhile isHorizontal = blanks := by
      have hc : isHorizontal c = false := isHorizontal_of_isWordPart (by simp [isWordPart, hc])
      exact Text.takeWhile_append_stop (List.all_eq_true.mp hblanks) (by simpa using hc)
    rw [htake, List.drop_left, List.drop_left, ← wordEnds_iff.mp hrest]
    simp

/-- What closes a heredoc: a line end and a closing line. -/
lemma closing_heredoc_eq_some_iff : (Quote.heredoc l).closing s = some n ↔
    ∃ e r k, (e = ['\n'] ∨ e = ['\r', '\n']) ∧ s = e ++ r ∧ closingLength l r = some k ∧
      n = e.length + k := by
  have hadd (k m : Nat) : n = k + m ↔ m + k = n := by omega
  constructor
  · intro h
    rw [Quote.closing.eq_def] at h
    split at h
    · next hq => cases hq
    · next r hq =>
      cases hq
      obtain ⟨k, hk, rfl⟩ := Option.map_eq_some_iff.mp h
      exact ⟨_, r, k, .inr rfl, rfl, hk, by simp [Nat.add_comm]⟩
    · next r hq =>
      cases hq
      obtain ⟨k, hk, rfl⟩ := Option.map_eq_some_iff.mp h
      exact ⟨_, r, k, .inl rfl, rfl, hk, by simp [Nat.add_comm]⟩
    · cases h
  · rintro ⟨e, r, k, rfl | rfl, rfl, hk, rfl⟩
    · simp [Quote.closing, hk, Nat.add_comm]
    · simp [Quote.closing, hk, Nat.add_comm]

lemma closing_mark (c d : Char) (s : List Char) :
    (Quote.mark d).closing (c :: s) = if c = d then some 1 else none := by
  simp [Quote.closing]

lemma closing_pos (h : q.closing s = some n) : 0 < n := by
  cases q with
  | mark d =>
    cases s with
    | nil => cases h
    | cons c s =>
      rw [closing_mark] at h
      split at h <;> cases h
      exact Nat.one_pos
  | heredoc l =>
    obtain ⟨e, r, k, rfl | rfl, -, -, rfl⟩ := closing_heredoc_eq_some_iff.mp h
    · exact Nat.add_pos_left Nat.one_pos k
    · exact Nat.add_pos_left Nat.two_pos k

lemma closing_append (hq : q.Proper) (hy : Stops y) (h : q.closing (p ++ x) = some n)
    (hn : n ≤ p.length) : q.closing (p ++ y) = some n := by
  cases q with
  | mark d =>
    cases p with
    | nil =>
      have := closing_pos h
      rw [List.length_nil] at hn
      omega
    | cons c p => rwa [List.cons_append, closing_mark] at h ⊢
  | heredoc l =>
    obtain ⟨e, r, k, he, hs, hk, rfl⟩ := closing_heredoc_eq_some_iff.mp h
    obtain ⟨blanks, rest, rfl, hblanks, hrest, rfl⟩ := (closingLength_eq_some_iff hq).mp hk
    obtain ⟨p', rfl, rfl⟩ : ∃ p', p = e ++ (blanks ++ l) ++ p' ∧ rest = p' ++ x :=
      append_split (by simpa using hs.symm) (by simpa [Nat.add_assoc] using hn)
    refine closing_heredoc_eq_some_iff.mpr ⟨e, blanks ++ (l ++ (p' ++ y)), _, he, by simp, ?_, rfl⟩
    exact (closingLength_eq_some_iff hq).mpr ⟨blanks, _, rfl, hblanks, hy.wordEnds hrest, rfl⟩

lemma Breaks.notMem_append {blanks : List Char} (hc : Breaks c) (hl : IsWord l)
    (hblanks : blanks.all isHorizontal = true) : c ∉ blanks ++ l := by
  intro hmem
  rcases List.mem_append.mp hmem with hmem | hmem
  · rw [Breaks, List.all_eq_true.mp hblanks c hmem] at hc
    cases hc.1
  · rw [Breaks, List.all_eq_true.mp hl.2 c hmem] at hc
    cases hc.2

/-- Whether a closing line stands in front is settled before a character that breaks it. -/
lemma closing_of_breaks (hl : IsWord l) (hc : Breaks c) (ht : t ≠ [])
    (hline : c = '\n' → ((Quote.heredoc l).closing (c :: z)).isSome)
    (h : (Quote.heredoc l).closing (t ++ c :: z) = none) :
    (Quote.heredoc l).closing (t ++ c :: z') = none := by
  rw [Option.eq_none_iff_forall_ne_some] at h ⊢
  intro n hn
  obtain ⟨e, r, k, he, hs, hk, rfl⟩ := closing_heredoc_eq_some_iff.mp hn
  obtain ⟨blanks, rest, rfl, hblanks, hrest, rfl⟩ := (closingLength_eq_some_iff hl).mp hk
  obtain ⟨t', rfl, hr⟩ | ⟨e', rfl, hr⟩ := List.append_eq_append_iff.mp hs.symm
  · rw [← List.append_assoc] at hr
    obtain ⟨t', rfl, rfl⟩ := append_split_of_notMem hr (hc.notMem_append hl hblanks)
    refine h _ (closing_heredoc_eq_some_iff.mpr ⟨e, blanks ++ (l ++ (t' ++ c :: z)), _, he, by simp,
      (closingLength_eq_some_iff hl).mpr ⟨blanks, _, rfl, hblanks, ?_, rfl⟩, rfl⟩)
    cases t' with
    | nil => simpa [WordEnds] using hc.2
    | cons d t' => exact hrest
  · rcases e' with _ | ⟨d, e'⟩
    · -- The line ends right before the character.
      obtain ⟨d, w, rfl, -⟩ := hl.head_cons
      have hmem : c ∈ blanks ++ d :: w := by
        cases blanks with
        | nil => simp [(List.cons.inj hr).1]
        | cons b blanks => simp [(List.cons.inj hr).1]
      exact absurd hmem (hc.notMem_append hl hblanks)
    · -- A carriage return alone stands before the line feed.
      obtain ⟨rfl, -⟩ := List.cons.inj hr
      obtain ⟨rfl, rfl⟩ : t = ['\r'] ∧ c = '\n' := by
        rcases t with _ | ⟨a, _ | ⟨b, t⟩⟩
        · exact absurd rfl ht
        · obtain ⟨rfl, rfl, -⟩ : a = '\r' ∧ c = '\n' ∧ e' = [] := by simpa using he
          exact ⟨rfl, rfl⟩
        · simp at he
      obtain ⟨j, hj⟩ := Option.isSome_iff_exists.mp (hline rfl)
      obtain ⟨e, r, k, rfl | rfl, hr, hk, -⟩ := closing_heredoc_eq_some_iff.mp hj
      · obtain ⟨-, rfl⟩ := List.cons.inj hr
        exact h _ (closing_heredoc_eq_some_iff.mpr ⟨['\r', '\n'], _, k, .inr rfl, rfl, hk, rfl⟩)
      · cases hr

/-! ### Plain characters -/

/-- No plain character of the string is in front. -/
def Quote.stops (q : Quote) (s : List Char) : Bool := (q.closing s).isSome || opensExpression s

lemma plainLength_cons (hc : c ≠ '\\') (s : List Char) :
    q.plainLength (c :: s) = if q.stops (c :: s) then 0 else q.plainLength s + 1 := by
  rw [Quote.plainLength]
  · rfl
  · rintro d r rfl
    exact absurd rfl hc

lemma plainLength_slash (c : Char) (s : List Char) : q.plainLength ('\\' :: c :: s) =
    if q.escapes c then q.plainLength s + 2 else q.plainLength (c :: s) + 1 := by
  rw [Quote.plainLength]

lemma breaks_of_stops (hq : q.Proper) (h : q.stops (c :: s) = true) :
    c ≠ '\\' ∧ ∀ l, q = .heredoc l → Breaks c := by
  rw [Quote.stops, Bool.or_eq_true] at h
  rcases h with h | h
  · obtain ⟨n, hn⟩ := Option.isSome_iff_exists.mp h
    cases q with
    | mark d =>
      rw [closing_mark] at hn
      split at hn
      · next hcd =>
        subst hcd
        refine ⟨?_, by simp⟩
        rintro rfl
        rcases hq with hq | hq <;> cases hq
      · cases hn
    | heredoc l =>
      obtain ⟨e, r, k, rfl | rfl, hr, -, -⟩ := closing_heredoc_eq_some_iff.mp hn
      · obtain ⟨rfl, -⟩ := List.cons.inj hr
        exact ⟨by decide, fun _ _ => ⟨by decide, by decide⟩⟩
      · obtain ⟨rfl, -⟩ := List.cons.inj hr
        exact ⟨by decide, fun _ _ => ⟨by decide, by decide⟩⟩
  · rw [opensExpression.eq_def] at h
    split at h
    · next hs =>
      obtain ⟨rfl, -⟩ := List.cons.inj hs
      exact ⟨by decide, fun _ _ => ⟨by decide, by decide⟩⟩
    · next hs =>
      obtain ⟨rfl, -⟩ := List.cons.inj hs
      exact ⟨by decide, fun _ _ => ⟨by decide, by decide⟩⟩
    · cases h

lemma opensExpression_append (a b : Char) (s s' : List Char) :
    opensExpression (a :: b :: s) = opensExpression (a :: b :: s') := by
  by_cases hdollar : a = '$'
  · subst hdollar
    rfl
  · by_cases hbrace : a = '\x7b'
    · subst hbrace
      by_cases hb : b = '$' <;> simp [opensExpression, hb]
    · simp [opensExpression, hdollar, hbrace]

/-- Plain characters stay so, whatever comes behind the character that ends them. -/
lemma not_stops_append (hq : q.Proper) (hx : q.stops (c :: z) = true) (ht : t ≠ [])
    (h : q.stops (t ++ c :: z) = false) : q.stops (t ++ c :: z') = false := by
  rw [Quote.stops, Bool.or_eq_false_iff] at h ⊢
  constructor
  · rw [Option.isSome_eq_false_iff, Option.isNone_iff_eq_none] at h ⊢
    cases q with
    | mark d =>
      obtain ⟨a, t, rfl⟩ := List.exists_cons_of_ne_nil ht
      simpa [closing_mark] using h.1
    | heredoc l =>
      refine closing_of_breaks hq ((breaks_of_stops hq hx).2 l rfl) ht ?_ h.1
      rintro rfl
      simpa [Quote.stops, opensExpression] using hx
  · rcases t with _ | ⟨a, _ | ⟨b, t⟩⟩
    · exact absurd rfl ht
    · exact (opensExpression_append a c z' z).trans h.2
    · exact (opensExpression_append a b (t ++ c :: z') (t ++ c :: z)).trans h.2

lemma plainLength_append (hq : q.Proper) (hx : q.stops (c :: z) = true)
    (hy : q.stops (c :: z') = true) (h : q.plainLength (t ++ c :: z) = t.length) :
    q.plainLength (t ++ c :: z') = t.length := by
  have hc := (breaks_of_stops hq hx).1
  have hlast : q.plainLength (c :: z') = 0 := by rw [plainLength_cons hc, hy, if_pos rfl]
  have hstep {a : Char} {t : List Char} (ha : a ≠ '\\')
      (h : q.plainLength (a :: t ++ c :: z) = (a :: t).length)
      (ih : q.plainLength (t ++ c :: z) = t.length → q.plainLength (t ++ c :: z') = t.length) :
      q.plainLength (a :: t ++ c :: z') = (a :: t).length := by
    rw [List.cons_append, plainLength_cons ha] at h ⊢
    split at h
    · simp at h
    · next hstops =>
      have hstops' : q.stops (a :: t ++ c :: z') = false :=
        not_stops_append hq hx (List.cons_ne_nil a t) (by simpa using hstops)
      rw [List.cons_append] at hstops'
      rw [hstops', if_neg (by simp), ih (by simpa using h)]
      rfl
  -- Two characters at a time, as a backslash may take the next one with it.
  induction t using List.twoStepInduction with
  | nil => exact hlast
  | singleton a =>
    by_cases ha : a = '\\'
    · subst ha
      rw [List.singleton_append, plainLength_slash] at h ⊢
      split at h
      · simp at h
      · next hescape => rw [if_neg hescape, hlast]; rfl
    · exact hstep ha h fun _ => hlast
  | cons_cons a b t ih ih' =>
    by_cases ha : a = '\\'
    · subst ha
      rw [List.cons_append, List.cons_append, plainLength_slash] at h ⊢
      split at h
      · next hescape => rw [if_pos hescape, ih (by simpa using h)]; rfl
      · next hescape =>
        have := ih' b (by simpa using h)
        rw [List.cons_append] at this
        rw [if_neg hescape, this]
        rfl
    · exact hstep ha h (ih' b)

/-- The plain characters go on to the end of the text or to what stops them. -/
lemma plainLength_le (q : Quote) (s : List Char) :
    q.plainLength s ≤ s.length ∧
      (s.drop (q.plainLength s) = [] ∨ q.stops (s.drop (q.plainLength s)) = true) := by
  fun_induction Quote.plainLength q s with
  | case1 => simp
  | case2 c s hescape ih => simpa using ih
  | case3 c s hescape ih => simpa using ih
  | case4 c s hslash hstops => exact ⟨Nat.zero_le _, .inr hstops⟩
  | case5 c s hslash hstops ih => simpa using ih

lemma plainLength_drop (h : q.plainLength s = n) (hn : n < s.length) :
    ∃ t c z, s = t ++ c :: z ∧ t.length = n ∧ q.stops (c :: z) = true := by
  obtain ⟨-, hdrop | hdrop⟩ := plainLength_le q s
  · rw [h, List.drop_eq_nil_iff] at hdrop
    omega
  · rw [h] at hdrop
    obtain ⟨c, z, hz⟩ := List.exists_cons_of_ne_nil (l := s.drop n) (by simpa using hn)
    refine ⟨s.take n, c, z, ?_, by simp; omega, hz ▸ hdrop⟩
    rw [← hz, List.take_append_drop]

/-- Plain characters up to what closes the string within `p`. -/
lemma plainLength_closed (hq : q.Proper) (hy : Stops y) (h : q.plainLength (p ++ x) = n)
    (hclose : q.closing ((p ++ x).drop n) = some m) (hle : n + m ≤ p.length) :
    q.plainLength (p ++ y) = n ∧ q.closing ((p ++ y).drop n) = some m := by
  have hm := closing_pos hclose
  obtain ⟨t, c, z, hs, rfl, hstops⟩ := plainLength_drop h (by rw [List.length_append]; omega)
  obtain ⟨p', rfl, hz⟩ := append_split hs.symm (by omega)
  rw [List.append_assoc, List.drop_left] at hclose
  rw [List.append_assoc] at h hs
  rw [List.append_assoc, List.drop_left]
  have hclose' := closing_append hq hy hclose (by simpa using hle)
  refine ⟨?_, hclose'⟩
  rw [← hz] at hclose
  obtain ⟨d, p', rfl⟩ := List.exists_cons_of_ne_nil (l := p') (by rintro rfl; simp at hle; omega)
  obtain ⟨rfl, rfl⟩ := List.cons.inj hz
  have hstops' : q.stops (c :: p' ++ y) = true := by
    rw [Quote.stops, hclose']
    rfl
  exact plainLength_append hq hstops hstops' h

section Template

variable {plain : TokenKind} {start : Nat}

lemma scanTemplate_closed (modes : List Mode) (plain : TokenKind) (hr : s.drop start = r)
    (h : q.closing (r.drop (q.plainLength r)) = some m) :
    scanTemplate modes q plain start s = ⟨plain, start + q.plainLength r + m, modes⟩ := by
  subst hr
  rw [List.drop_drop] at h
  simp only [scanTemplate, h]

lemma scanTemplate_unclosed (modes : List Mode) (plain : TokenKind) (hr : s.drop start = r)
    (h : q.closing (r.drop (q.plainLength r)) = none) : scanTemplate modes q plain start s =
      if (r.drop (q.plainLength r)).isEmpty then ⟨.unknown, 1, modes⟩
      else ⟨.templateOpen, start, .template q :: modes⟩ := by
  subst hr
  rw [List.drop_drop] at h ⊢
  simp only [scanTemplate, h]

lemma scanTemplate_plain (hq : q.Proper) (hy : Stops y)
    (hplain : plain ≠ .unknown ∧ plain ≠ .templateOpen)
    (hkind : (scanTemplate modes q plain start (p ++ x)).kind = plain)
    (hstart : start ≤ p.length)
    (h : (scanTemplate modes q plain start (p ++ x)).length ≤ p.length) :
    scanTemplate modes q plain start (p ++ y) = scanTemplate modes q plain start (p ++ x) := by
  have hdrop (s : List Char) : (p ++ s).drop start = p.drop start ++ s :=
    List.drop_append_of_le_length hstart
  cases hm : q.closing ((p.drop start ++ x).drop (q.plainLength (p.drop start ++ x))) with
  | some m =>
    rw [scanTemplate_closed modes plain (hdrop x) hm] at h ⊢
    dsimp only at h
    obtain ⟨hn, hm'⟩ := plainLength_closed hq hy rfl hm (by rw [List.length_drop]; omega)
    rw [scanTemplate_closed modes plain (hdrop y) (hn ▸ hm'), hn]
  | none =>
    rw [scanTemplate_unclosed modes plain (hdrop x) hm] at hkind
    split at hkind
    · exact absurd hkind.symm hplain.1
    · exact absurd hkind.symm hplain.2

lemma scanTemplate_open (hstart : start ≤ p.length)
    (hplain : q.plainLength (p.drop start ++ x) < (p.drop start).length)
    (hnone : q.closing ((p.drop start ++ x).drop (q.plainLength (p.drop start ++ x))) = none)
    (hplain' : q.plainLength (p.drop start ++ y) = q.plainLength (p.drop start ++ x))
    (hnone' : q.closing ((p.drop start ++ y).drop (q.plainLength (p.drop start ++ y))) = none) :
    scanTemplate modes q plain start (p ++ y) = scanTemplate modes q plain start (p ++ x) := by
  have hdrop (s : List Char) : (p ++ s).drop start = p.drop start ++ s :=
    List.drop_append_of_le_length hstart
  have hsome (s : List Char) : ((p.drop start ++ s).drop
      (q.plainLength (p.drop start ++ x))).isEmpty = false := by
    rw [List.isEmpty_eq_false_iff, Ne, List.drop_eq_nil_iff, List.length_append]
    omega
  rw [scanTemplate_unclosed modes plain (hdrop x) hnone,
    scanTemplate_unclosed modes plain (hdrop y) hnone', hplain', hsome, hsome]

end Template

/-! ### Heredocs and nowdocs -/

def LineEnds (s : List Char) : Prop := s.head? = some '\n' ∨ s.take 2 = ['\r', '\n']

instance (s : List Char) : Decidable (LineEnds s) := inferInstanceAs (Decidable (_ ∨ _))

lemma LineEnds.wordEnds (h : LineEnds s) : WordEnds s := by
  rcases s with _ | ⟨c, s⟩
  · rcases h with h | h <;> cases h
  · intro d hd
    obtain rfl : c = d := by simpa using hd
    rcases h with h | h
    · obtain rfl : c = '\n' := by simpa using h
      decide
    · obtain rfl : c = '\r' := by simpa using (List.cons.inj h).1
      decide

lemma LineEnds.append (h : LineEnds (p ++ x)) (hp : p ≠ []) (hreturn : p ≠ ['\r']) (y : List Char) :
    LineEnds (p ++ y) := by
  rcases p with _ | ⟨c, _ | ⟨d, p⟩⟩
  · exact absurd rfl hp
  · rcases h with h | h
    · exact .inl h
    · obtain rfl : c = '\r' := by simpa using (List.cons.inj h).1
      exact absurd rfl hreturn
  · exact h

def IsQuotes (quotes : List Char) : Prop := quotes = [] ∨ quotes = ['\''] ∨ quotes = ['"']

lemma IsQuotes.wordEnds {quotes : List Char} (h : IsQuotes quotes) (hs : WordEnds s) :
    WordEnds (quotes ++ s) := by
  rcases h with rfl | rfl | rfl
  · exact hs
  · simpa [WordEnds] using (by decide : isWordPart '\'' = false)
  · simpa [WordEnds] using (by decide : isWordPart '"' = false)

/-- What is read after the blanks and the quote that opens. -/
def labelAfter (blanks : Nat) (quotes s : List Char) : Option (Nat × List Char × Bool) :=
  let label := s.takeWhile isWordPart
  let rest := s.drop label.length
  let after := rest.drop quotes.length
  if startsWord label && rest.take quotes.length == quotes &&
      (after.head? == some '\n' || after.take 2 == ['\r', '\n']) then
    some (3 + blanks + 2 * quotes.length + label.length, label, quotes == ['\''])
  else none

lemma takeWhile_word (hl : IsWord l) (hs : WordEnds s) : (l ++ s).takeWhile isWordPart = l :=
  Text.takeWhile_append_stop (List.all_eq_true.mp hl.2) hs

lemma labelAfter_eq_some_iff {quotes : List Char} {blanks : Nat} {b : Bool}
    (hquotes : IsQuotes quotes) : labelAfter blanks quotes s = some (n, l, b) ↔
      ∃ rest, s = l ++ (quotes ++ rest) ∧ IsWord l ∧ LineEnds rest ∧
        n = 3 + blanks + 2 * quotes.length + l.length ∧ b = (quotes == ['\'']) := by
  rw [labelAfter]
  constructor
  · intro h
    split at h
    · next hcond =>
      simp only [Bool.and_eq_true, Bool.or_eq_true, beq_iff_eq] at hcond
      obtain ⟨⟨hstart, htake⟩, hend⟩ := hcond
      cases h
      refine ⟨_, ?_, ⟨hstart, List.all_takeWhile⟩, hend, rfl, rfl⟩
      have hrest := List.take_append_drop quotes.length (s.drop (s.takeWhile isWordPart).length)
      rw [htake] at hrest
      rw [hrest]
      exact (List.prefix_iff_eq_append.mp (List.takeWhile_prefix _)).symm
    · cases h
  · rintro ⟨rest, rfl, hl, hrest, rfl, rfl⟩
    rw [takeWhile_word hl (hquotes.wordEnds hrest.wordEnds), List.drop_left, List.drop_left,
      List.take_left, if_pos]
    simpa [hl.1, LineEnds] using hrest

lemma takeWhile_blanks {blanks quotes : List Char} (hblanks : blanks.all isHorizontal = true)
    (hquotes : IsQuotes quotes) (hl : IsWord l) :
    (blanks ++ (quotes ++ (l ++ r))).takeWhile isHorizontal = blanks := by
  obtain ⟨c, w, rfl, hc⟩ := hl.head_cons
  have hc : isHorizontal c = false := isHorizontal_of_isWordPart (by simp [isWordPart, hc])
  rw [List.takeWhile_append_of_pos (by simpa using hblanks), List.append_right_eq_self]
  rcases hquotes with rfl | rfl | rfl
  · simp [hc]
  · rfl
  · rfl

lemma heredocStart_eq {blanks quotes : List Char} (hblanks : blanks.all isHorizontal = true)
    (hquotes : IsQuotes quotes) (hl : IsWord l) :
    heredocStart ("<<<".toList ++ (blanks ++ (quotes ++ (l ++ r)))) =
      labelAfter blanks.length quotes (l ++ r) := by
  change heredocStart ('<' :: '<' :: '<' :: (blanks ++ (quotes ++ (l ++ r)))) = _
  rw [heredocStart, takeWhile_blanks hblanks hquotes hl, List.drop_left]
  rcases hquotes with rfl | rfl | rfl
  · obtain ⟨c, w, rfl, hc⟩ := hl.head_cons
    have hne {d : Char} (hd : isWordStart d = false) : c ≠ d := by
      rintro rfl
      rw [hc] at hd
      cases hd
    dsimp only [List.nil_append, List.cons_append]
    split
    · next hs => exact absurd (List.cons.inj hs).1 (hne (by decide))
    · next hs => exact absurd (List.cons.inj hs).1 (hne (by decide))
    · rfl
  · rfl
  · rfl

/-- The first line of a heredoc or nowdoc: its label, in quotes or not, and the end of the line. -/
lemma heredocStart_eq_some_iff {b : Bool} : heredocStart s = some (n, l, b) ↔
    ∃ blanks quotes rest, s = "<<<".toList ++ (blanks ++ (quotes ++ (l ++ (quotes ++ rest)))) ∧
      blanks.all isHorizontal = true ∧ IsQuotes quotes ∧ IsWord l ∧ LineEnds rest ∧
      n = 3 + blanks.length + 2 * quotes.length + l.length ∧ b = (quotes == ['\'']) := by
  constructor
  · intro h
    rw [heredocStart.eq_def] at h
    split at h
    · next s =>
      have hs : s = s.takeWhile isHorizontal ++ s.drop (s.takeWhile isHorizontal).length :=
        (List.prefix_iff_eq_append.mp (List.takeWhile_prefix _)).symm
      have hlabel {quotes u : List Char} (hquotes : IsQuotes quotes)
          (hu : s.drop (s.takeWhile isHorizontal).length = quotes ++ u)
          (h : labelAfter (s.takeWhile isHorizontal).length quotes u = some (n, l, b)) :
          ∃ blanks quotes rest, '<' :: '<' :: '<' :: s =
              "<<<".toList ++ (blanks ++ (quotes ++ (l ++ (quotes ++ rest)))) ∧
            blanks.all isHorizontal = true ∧ IsQuotes quotes ∧ IsWord l ∧ LineEnds rest ∧
            n = 3 + blanks.length + 2 * quotes.length + l.length ∧ b = (quotes == ['\'']) := by
        obtain ⟨rest, rfl, hl, hrest, hn, hb⟩ := (labelAfter_eq_some_iff hquotes).mp h
        exact ⟨_, quotes, rest, by rw [← hu, ← hs]; rfl, List.all_takeWhile, hquotes, hl, hrest,
          hn, hb⟩
      dsimp only at h
      split at h
      · next u hu => exact hlabel (.inr (.inl rfl)) hu h
      · next u hu => exact hlabel (.inr (.inr rfl)) hu h
      · exact hlabel (.inl rfl) rfl h
    · cases h
  · rintro ⟨blanks, quotes, rest, rfl, hblanks, hquotes, hl, hrest, rfl, rfl⟩
    rw [heredocStart_eq hblanks hquotes hl]
    exact (labelAfter_eq_some_iff hquotes).mpr ⟨rest, rfl, hl, hrest, rfl, rfl⟩

lemma heredocStart_append {b : Bool} (h : heredocStart (p ++ x) = some (n, l, b))
    (hn : n + 2 ≤ p.length) (y : List Char) : heredocStart (p ++ y) = some (n, l, b) := by
  obtain ⟨blanks, quotes, rest, hs, hblanks, hquotes, hl, hrest, rfl, rfl⟩ :=
    heredocStart_eq_some_iff.mp h
  obtain ⟨p', rfl, rfl⟩ : ∃ p', p = "<<<".toList ++ (blanks ++ (quotes ++ (l ++ quotes))) ++ p' ∧
      rest = p' ++ x := append_split (by simpa using hs.symm) (by simp; omega)
  refine heredocStart_eq_some_iff.mpr ⟨blanks, quotes, p' ++ y, by simp, hblanks, hquotes, hl,
    hrest.append ?_ ?_ y, rfl, rfl⟩
  · rintro rfl
    simp at hn
    omega
  · rintro rfl
    simp at hn
    omega

lemma word_of_heredocStart {b : Bool} (h : heredocStart s = some (n, l, b)) : IsWord l := by
  obtain ⟨-, -, -, -, -, -, hl, -⟩ := heredocStart_eq_some_iff.mp h
  exact hl

/-- A closing line has a line end and a label. -/
lemma two_le_closing (hl : IsWord l) (h : (Quote.heredoc l).closing s = some n) : 2 ≤ n := by
  obtain ⟨e, r, k, he, -, hk, rfl⟩ := closing_heredoc_eq_some_iff.mp h
  obtain ⟨blanks, rest, -, -, -, rfl⟩ := (closingLength_eq_some_iff hl).mp hk
  obtain ⟨c, w, rfl, -⟩ := hl.head_cons
  rcases he with rfl | rfl
  · simp
    omega
  · simp

lemma nowdocLength_cons_none (h : (Quote.heredoc l).closing (c :: s) = none) :
    nowdocLength l (c :: s) = (nowdocLength l s).map (· + 1) := by rw [nowdocLength, h]

lemma nowdocLength_split (h : nowdocLength l s = some n) : ∃ t c z m, s = t ++ c :: z ∧
    (Quote.heredoc l).closing (c :: z) = some m ∧ n = t.length + m := by
  induction s generalizing n with
  | nil => cases h
  | cons c s ih =>
    cases hc : (Quote.heredoc l).closing (c :: s) with
    | some m =>
      rw [nowdocLength, hc] at h
      cases h
      exact ⟨[], c, s, n, rfl, hc, by simp⟩
    | none =>
      rw [nowdocLength_cons_none hc, Option.map_eq_some_iff] at h
      obtain ⟨k, hk, rfl⟩ := h
      obtain ⟨t, d, z, m, rfl, hm, rfl⟩ := ih hk
      exact ⟨c :: t, d, z, m, rfl, hm, by simp; omega⟩

lemma two_le_nowdocLength (hl : IsWord l) (h : nowdocLength l s = some n) : 2 ≤ n := by
  obtain ⟨t, c, z, m, -, hm, rfl⟩ := nowdocLength_split h
  have := two_le_closing hl hm
  omega

lemma nowdocLength_append (hl : IsWord l) (hy : Stops y) (h : nowdocLength l (p ++ x) = some n)
    (hn : n ≤ p.length) : nowdocLength l (p ++ y) = some n := by
  induction p generalizing n with
  | nil =>
    have := two_le_nowdocLength hl h
    rw [List.length_nil] at hn
    omega
  | cons c p ih =>
    rw [List.cons_append] at h ⊢
    cases hc : (Quote.heredoc l).closing (c :: (p ++ x)) with
    | some m =>
      rw [nowdocLength, hc] at h
      cases h
      have := closing_append (q := .heredoc l) (p := c :: p) hl hy hc hn
      rw [List.cons_append] at this
      rw [nowdocLength, this]
    | none =>
      rw [nowdocLength_cons_none hc, Option.map_eq_some_iff] at h
      obtain ⟨k, hk, rfl⟩ := h
      rw [List.length_cons, Nat.add_le_add_iff_right] at hn
      -- The closing line starts within `p`, so `c` starts none before `y` either.
      obtain ⟨t, d, z, m, hs, hm, rfl⟩ := nowdocLength_split hk
      have hpos := closing_pos hm
      obtain ⟨p', rfl, hz⟩ := append_split hs.symm (by omega)
      obtain ⟨e, p', rfl⟩ := List.exists_cons_of_ne_nil (l := p')
        (by rintro rfl; rw [List.append_nil] at hn; omega)
      obtain ⟨rfl, rfl⟩ := List.cons.inj hz
      have hstops : (Quote.heredoc l).stops (d :: p'.append x) = true := by
        rw [Quote.stops, hm]
        rfl
      have hnone : (Quote.heredoc l).closing (c :: t ++ d :: (p' ++ y)) = none := by
        have hbreaks := (breaks_of_stops (q := .heredoc l) hl hstops).2 l rfl
        refine closing_of_breaks (z := p' ++ x) hl hbreaks
          (List.cons_ne_nil c t) (fun _ => Option.isSome_iff_exists.mpr ⟨m, hm⟩) ?_
        simpa using hc
      have hcons : c :: (t ++ d :: p' ++ y) = c :: t ++ d :: (p' ++ y) := by simp
      rw [hcons, List.cons_append, nowdocLength_cons_none (by simpa using hnone)]
      have hrest := ih hk hn
      rw [List.append_assoc, List.cons_append] at hrest
      rw [hrest]
      rfl

end EloquentEntity.Syntax

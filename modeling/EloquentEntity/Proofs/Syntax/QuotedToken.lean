import EloquentEntity.Proofs.Syntax.Grammar
import EloquentEntity.Proofs.Syntax.Quoting
import EloquentEntity.Proofs.Syntax.Scanning
import EloquentEntity.Syntax.Source

/-!
Literals of texts in a source.

Wherever code goes on with the literal of a text, the lexer takes all of it for one token. No quote
or expression comes too early, since each one in the text has a backslash in front, and no closing
line does, since the label is not in the text.
-/

namespace EloquentEntity.Syntax.Literal

open Style

variable {special s l w r z : List Char} {c : Char} {q : Quote} {modes : List Mode} {m : Nat}

/-! ### The label in an escaped text -/

lemma prefix_of_escapeWith (hl : l.all isWordPart = true) (h : l <+: escapeWith special s) :
    l <+: s := by
  induction s generalizing l with
  | nil => exact h
  | cons c s ih =>
    cases l with
    | nil => exact List.nil_prefix
    | cons d l =>
      rw [List.all_cons, Bool.and_eq_true] at hl
      by_cases hc : c ∈ special
      · rw [escapeWith_of_mem hc, List.cons_prefix_cons] at h
        rw [h.1] at hl
        exact absurd hl.1 (by decide)
      · rw [escapeWith_of_notMem hc, List.cons_prefix_cons] at h
        exact List.cons_prefix_cons.mpr ⟨h.1, ih hl.2 h.2⟩

lemma isWordPart_heredocSpecial : ∀ c ∈ heredocSpecial, isWordPart c = false := by
  intro c hc
  simp only [heredocSpecial, List.mem_cons, List.not_mem_nil, or_false] at hc
  rcases hc with rfl | rfl <;> decide

/-- No backslash stands within a word, so a word comes in the text itself. -/
lemma infix_of_escapeWith (hspecial : ∀ c ∈ special, isWordPart c = false) (hl : IsWord l)
    (h : l <:+: escapeWith special s) : l <:+: s := by
  obtain ⟨d, l, rfl, -⟩ := hl.head_cons
  have hd : isWordPart d = true := List.all_eq_true.mp hl.2 d (by simp)
  induction s with
  | nil => exact h
  | cons c s ih =>
    refine List.infix_cons_iff.mpr ?_
    by_cases hc : c ∈ special
    · rw [escapeWith_of_mem hc, List.infix_cons_iff, List.infix_cons_iff, List.cons_prefix_cons,
        List.cons_prefix_cons] at h
      rcases h with ⟨rfl, -⟩ | ⟨rfl, -⟩ | h
      · exact absurd hd (by decide)
      · exact absurd hd (by simp [hspecial d hc])
      · exact .inr (ih h)
    · have hall := h
      rw [escapeWith_of_notMem hc, List.infix_cons_iff] at h
      rcases h with h | h
      · rw [← escapeWith_of_notMem hc] at h
        exact .inl (prefix_of_escapeWith hl.2 h)
      · exact .inr (ih h)

/-! ### Closing lines -/

lemma infix_of_indent (hl : IsWord l) (hw : w.all isHorizontal = true) (h : l <:+: w ++ s) :
    l <:+: s := by
  obtain ⟨d, l, rfl, hd⟩ := hl.head_cons
  have hd : isHorizontal d = false := isHorizontal_of_isWordPart (by simp [isWordPart, hd])
  induction w with
  | nil => exact h
  | cons c w ih =>
    rw [List.all_cons, Bool.and_eq_true] at hw
    rw [List.cons_append, List.infix_cons_iff, List.cons_prefix_cons] at h
    rcases h with ⟨rfl, -⟩ | h
    · rw [hd] at hw
      cases hw.1
    · exact ih hw.2 h

lemma exists_line (w s z : List Char) :
    ∃ l z', l <:+: s ∧ indented w s ++ '\n' :: z = w ++ l ++ '\n' :: z' := by
  induction s using lines_induction with
  | last l hl => exact ⟨l, z, List.infix_rfl, by rw [indented_last w hl]⟩
  | line l s hl _ =>
    refine ⟨l, indented w s ++ '\n' :: z, (List.prefix_append l _).isInfix, ?_⟩
    rw [indented_line w hl]
    simp

/-- No line of a text closes a heredoc whose label is not in the text. -/
lemma closing_indented (hl : IsWord l) (hw : w.all isHorizontal = true) (hs : ¬l <:+: s)
    (z : List Char) :
    (Quote.heredoc l).closing ('\n' :: (indented w s ++ '\n' :: z)) = none := by
  rw [Option.eq_none_iff_forall_ne_some]
  intro n hn
  obtain ⟨e, r, k, rfl | rfl, hr, hk, -⟩ := closing_heredoc_eq_some_iff.mp hn
  · obtain ⟨blanks, rest, rfl, hblanks, -, -⟩ := (closingLength_eq_some_iff hl).mp hk
    obtain ⟨line, z', hline, hz⟩ := exists_line w s z
    have hsplit : blanks ++ l ++ rest = w ++ line ++ '\n' :: z' := by
      rw [← hz, List.append_assoc]
      exact (List.cons.inj hr).2.symm
    have hnewline : '\n' ∉ blanks ++ l :=
      Breaks.notMem_append ⟨by decide, by decide⟩ hl hblanks
    obtain ⟨t, ht, -⟩ := append_split_of_notMem hsplit hnewline
    have hinfix : l <:+: w ++ line := ⟨blanks, t, ht.symm⟩
    exact hs ((infix_of_indent hl hw hinfix).trans hline)
  · cases hr

lemma closing_last (hl : IsWord l) (hw : w.all isHorizontal = true) (hr : WordEnds r) :
    (Quote.heredoc l).closing ('\n' :: (w ++ (l ++ r))) = some (1 + (w.length + l.length)) :=
  closing_heredoc_eq_some_iff.mpr ⟨['\n'], _, _, .inl rfl, rfl,
    (closingLength_eq_some_iff hl).mpr ⟨w, r, rfl, hw, hr, rfl⟩, rfl⟩

lemma closing_eq_none (hn : c ≠ '\n') (hr : c ≠ '\r') (s : List Char) :
    (Quote.heredoc l).closing (c :: s) = none := by
  rw [Option.eq_none_iff_forall_ne_some]
  intro n h
  obtain ⟨e, r, k, rfl | rfl, hs, -, -⟩ := closing_heredoc_eq_some_iff.mp h
  · exact hn (List.cons.inj hs).1
  · exact hr (List.cons.inj hs).1

/-! ### Nowdocs -/

lemma nowdocLength_line {a : List Char} (ha : OneLine a) (z : List Char) :
    nowdocLength l (a ++ z) = (nowdocLength l z).map (· + a.length) := by
  induction a with
  | nil => simp
  | cons c a ih =>
    simp only [OneLine, List.mem_cons, not_or] at ha
    rw [List.cons_append, nowdocLength_cons_none (closing_eq_none (Ne.symm ha.1.1)
      (Ne.symm ha.2.1) _), ih ⟨ha.1.2, ha.2.2⟩, Option.map_map]
    rfl

/-- A nowdoc goes on over all lines of a text. -/
lemma nowdocLength_indented (hl : IsWord l) (hw : w.all isHorizontal = true) (hs : ¬l <:+: s)
    (hreturn : '\r' ∉ s) (hz : (Quote.heredoc l).closing ('\n' :: z) = some m) :
    nowdocLength l ('\n' :: (indented w s ++ '\n' :: z)) =
      some ((indented w s).length + 1 + m) := by
  have hblank := oneLine_of_horizontal hw
  rw [nowdocLength_cons_none (closing_indented hl hw hs z)]
  induction s using lines_induction with
  | last line hn =>
    rw [indented_last w hn, nowdocLength_line (hblank.append ⟨hn, hreturn⟩), nowdocLength, hz]
    simp
    omega
  | line line s hn ih =>
    simp only [List.mem_append, List.mem_cons, not_or] at hreturn
    have hs : ¬l <:+: s := fun h => hs (h.trans ⟨line ++ ['\n'], [], by simp⟩)
    rw [indented_line w hn, List.append_assoc, nowdocLength_line (hblank.append ⟨hn, hreturn.1⟩),
      List.cons_append, nowdocLength_cons_none (closing_indented hl hw hs z), ih hs hreturn.2.2]
    simp
    omega

/-! ### Quotes and heredocs -/

lemma singleLength_escapeWith (hquote : '\'' ∈ special) (hslash : '\\' ∈ special)
    (s z : List Char) : singleLength (escapeWith special s ++ z) =
      (singleLength z).map (· + (escapeWith special s).length) := by
  induction s with
  | nil => simp
  | cons c s ih =>
    by_cases hc : c ∈ special
    · rw [escapeWith_of_mem hc, List.cons_append, List.cons_append, singleLength, ih,
        Option.map_map]
      rfl
    · have hne {d : Char} (hd : d ∈ special) : c ≠ d := fun h => hc (h ▸ hd)
      rw [escapeWith_of_notMem hc, List.cons_append, singleLength_cons (hne hquote) (hne hslash),
        ih, Option.map_map]
      rfl

lemma opensExpression_eq_false (hc : c ≠ '$') (hs : s.head? ≠ some '$') :
    opensExpression (c :: s) = false := by
  cases s with
  | nil => simp [opensExpression]
  | cons d s =>
    have hd : d ≠ '$' := by simpa using hs
    simp [opensExpression, hc, hd]

lemma head?_escapeWith_ne (hdollar : '$' ∈ special) (hz : z.head? ≠ some '$') (s : List Char) :
    (escapeWith special s ++ z).head? ≠ some '$' := by
  cases s with
  | nil => exact hz
  | cons c s =>
    by_cases hc : c ∈ special
    · rw [escapeWith_of_mem hc]
      simp
    · rw [escapeWith_of_notMem hc]
      simpa using fun h : c = '$' => hc (h ▸ hdollar)

/-- The characters of an escaped text are plain, if those that need no backslash close nothing. -/
lemma plainLength_escapeWith (hslash : '\\' ∈ special) (hdollar : '$' ∈ special)
    (hescape : ∀ c ∈ special, q.escapes c = true)
    (hs : ∀ c ∈ s, c ∉ special → ∀ r, q.closing (c :: r) = none) (hz : z.head? ≠ some '$') :
    q.plainLength (escapeWith special s ++ z) =
      (escapeWith special s).length + q.plainLength z := by
  induction s with
  | nil => simp
  | cons c s ih =>
    have hclosing := hs c List.mem_cons_self
    have ih := ih fun d hd => hs d (List.mem_cons_of_mem c hd)
    by_cases hc : c ∈ special
    · rw [escapeWith_of_mem hc, List.cons_append, List.cons_append, plainLength_slash,
        if_pos (hescape c hc), ih]
      simp only [List.length_cons]
      omega
    · have hne {d : Char} (hd : d ∈ special) : c ≠ d := fun h => hc (h ▸ hd)
      have hstops : q.stops (c :: (escapeWith special s ++ z)) = false := by
        rw [Quote.stops, hclosing hc, opensExpression_eq_false (hne hdollar)
          (head?_escapeWith_ne hdollar hz s)]
        rfl
      rw [escapeWith_of_notMem hc, List.cons_append, plainLength_cons (hne hslash), hstops,
        if_neg Bool.false_ne_true, ih]
      simp only [List.length_cons]
      omega

lemma escapeWith_indent (hw : w.all isHorizontal = true) : escapeWith heredocSpecial w = w := by
  induction w with
  | nil => rfl
  | cons c w ih =>
    rw [List.all_cons, Bool.and_eq_true] at hw
    have hc : c ∉ heredocSpecial := by
      intro hc
      simp only [heredocSpecial, List.mem_cons, List.not_mem_nil, or_false] at hc
      rcases hc with rfl | rfl <;> exact absurd hw.1 (by decide)
    rw [escapeWith_of_notMem hc, ih hw.2]

lemma plainLength_line {line : List Char} (hw : w.all isHorizontal = true) (hline : OneLine line)
    (z : List Char) :
    (Quote.heredoc l).plainLength (w ++ escapeWith heredocSpecial line ++ '\n' :: z) =
      (w ++ escapeWith heredocSpecial line).length + (Quote.heredoc l).plainLength ('\n' :: z) := by
  have hall : w ++ escapeWith heredocSpecial line = escapeWith heredocSpecial (w ++ line) := by
    rw [escapeWith_append, escapeWith_indent hw]
  have hone : OneLine (w ++ line) := (oneLine_of_horizontal hw).append hline
  rw [hall]
  exact plainLength_escapeWith (by decide) (by decide) (by simp [heredocSpecial, Quote.escapes])
    (fun c hc _ => closing_eq_none (ne_of_mem_of_not_mem hc hone.1)
      (ne_of_mem_of_not_mem hc hone.2)) (by simp)

/-- The lines of an escaped text are plain, if the label is not in the text. -/
lemma plainLength_indented (hl : IsWord l) (hw : w.all isHorizontal = true) (hs : ¬l <:+: s)
    (hreturn : '\r' ∉ s) (hz : ((Quote.heredoc l).closing ('\n' :: z)).isSome) :
    (Quote.heredoc l).plainLength
        ('\n' :: (indented w (escapeWith heredocSpecial s) ++ '\n' :: z)) =
      (indented w (escapeWith heredocSpecial s)).length + 1 := by
  have hend : (Quote.heredoc l).plainLength ('\n' :: z) = 0 := by
    rw [plainLength_cons (by decide), Quote.stops, hz]
    rfl
  have hnewline (s : List Char) (hs : ¬l <:+: s) :
      (Quote.heredoc l).plainLength
          ('\n' :: (indented w (escapeWith heredocSpecial s) ++ '\n' :: z)) =
        (Quote.heredoc l).plainLength
          (indented w (escapeWith heredocSpecial s) ++ '\n' :: z) + 1 := by
    have hlabel : ¬l <:+: escapeWith heredocSpecial s :=
      fun h => hs (infix_of_escapeWith isWordPart_heredocSpecial hl h)
    rw [plainLength_cons (by decide), Quote.stops, closing_indented hl hw hlabel z,
      if_neg (by simp [opensExpression])]
  rw [hnewline s hs, Nat.add_right_cancel_iff]
  induction s using lines_induction with
  | last line hn =>
    have hn' : '\n' ∉ escapeWith heredocSpecial line := notMem_escapeWith (by decide) hn
    rw [indented_last w hn', plainLength_line hw ⟨hn, hreturn⟩, hend, Nat.add_zero]
  | line line s hn ih =>
    simp only [List.mem_append, List.mem_cons, not_or] at hreturn
    have hn' : '\n' ∉ escapeWith heredocSpecial line := notMem_escapeWith (by decide) hn
    have hs : ¬l <:+: s := fun h => hs (h.trans ⟨line ++ ['\n'], [], by simp⟩)
    rw [escapeWith_append, escapeWith_of_notMem (by decide), indented_line w hn', List.append_assoc,
      List.cons_append, plainLength_line hw ⟨hn, hreturn.1⟩, hnewline s hs, ih hs hreturn.2.2]
    simp only [List.length_append, List.length_cons, Nat.add_assoc]

/-! ### The whole literal -/

namespace Style

def tokenKind : Style → TokenKind
  | single => .singleQuoted
  | double => .doubleQuoted
  | nowdoc .. => .nowdoc
  | heredoc .. => .heredoc

end Style

lemma heredocStart_firstLine {quotes : List Char} (hquotes : IsQuotes quotes) (hl : IsWord l)
    (r : List Char) : heredocStart (firstLine quotes l ++ '\n' :: r) =
      some ((firstLine quotes l).length, l, quotes == ['\'']) :=
  heredocStart_eq_some_iff.mpr ⟨[], quotes, '\n' :: r, by simp [firstLine], rfl, hquotes, hl,
    .inl rfl, by simp [firstLine]; omega, rfl⟩

section Write

variable (modes : List Mode) (mark : List Char)

lemma scanString_write_single (s r : List Char) :
    scanString modes mark.length (mark ++ (single.write s ++ r)) =
      some ⟨.singleQuoted, (mark ++ single.write s).length, modes⟩ := by
  have hstart : (mark ++ (single.write s ++ r)).drop mark.length =
      '\'' :: (escapeWith ['\\', '\''] s ++ '\'' :: r) := by
    rw [List.drop_left, write]
    simp
  rw [scanString_single hstart, singleLength_escapeWith (by decide) (by decide), singleLength]
  simp [write]
  omega

lemma scanString_write_double (s r : List Char) :
    scanString modes mark.length (mark ++ (double.write s ++ r)) =
      some ⟨.doubleQuoted, (mark ++ double.write s).length, modes⟩ := by
  have hstart : (mark ++ (double.write s ++ r)).drop mark.length =
      '"' :: (escapeWith ['\\', '"', '$'] s ++ '"' :: r) := by
    rw [List.drop_left, write]
    simp
  have hrest : (mark ++ (double.write s ++ r)).drop (mark.length + 1) =
      escapeWith ['\\', '"', '$'] s ++ '"' :: r := by
    rw [← List.drop_drop, hstart]
    rfl
  have hplain : (Quote.mark '"').plainLength (escapeWith ['\\', '"', '$'] s ++ '"' :: r) =
      (escapeWith ['\\', '"', '$'] s).length := by
    have hend : (Quote.mark '"').plainLength ('"' :: r) = 0 := by
      rw [plainLength_cons (by decide), Quote.stops, closing_mark]
      rfl
    rw [plainLength_escapeWith (by decide) (by decide) (by simp [Quote.escapes])
      (fun c _ hc r => ?_) (by simp), hend, Nat.add_zero]
    rw [closing_mark, if_neg (by rintro rfl; simp at hc)]
  rw [scanString_double hstart, scanTemplate_closed modes .doubleQuoted hrest
    (by rw [hplain, List.drop_left, closing_mark, if_pos rfl]), hplain]
  simp [write]
  omega

lemma drop_firstLine (quotes l s : List Char) :
    (mark ++ (firstLine quotes l ++ s)).drop (mark.length + (firstLine quotes l).length) = s := by
  rw [← List.drop_drop, List.drop_left, List.drop_left]

lemma scanString_firstLine (quotes l s : List Char) :
    scanString modes mark.length (mark ++ (firstLine quotes l ++ s)) =
      scanHeredoc modes mark.length (mark ++ (firstLine quotes l ++ s)) := by
  have hstart : (mark ++ (firstLine quotes l ++ s)).drop mark.length =
      '<' :: ("<<".toList ++ quotes ++ l ++ quotes ++ s) := by
    rw [List.drop_left, firstLine]
    rfl
  exact scanString_heredoc hstart

lemma scanString_write_nowdoc (hl : IsWord l) (hw : w.all isHorizontal = true) (hreturn : '\r' ∉ s)
    (hs : ¬l <:+: s) (hr : WordEnds r) :
    scanString modes mark.length (mark ++ ((nowdoc l w).write s ++ r)) =
      some ⟨.nowdoc, (mark ++ (nowdoc l w).write s).length, modes⟩ := by
  have hwrite : (nowdoc l w).write s ++ r =
      firstLine ['\''] l ++ '\n' :: (indented w s ++ '\n' :: (w ++ (l ++ r))) := by simp [write]
  have hlabel : heredocStart ((mark ++ ((nowdoc l w).write s ++ r)).drop mark.length) =
      some ((firstLine ['\''] l).length, l, true) := by
    rw [List.drop_left, hwrite]
    exact heredocStart_firstLine (.inr (.inl rfl)) hl _
  rw [hwrite] at hlabel ⊢
  rw [scanString_firstLine, scanHeredoc_nowdoc hlabel, drop_firstLine,
    nowdocLength_indented hl hw hs hreturn (closing_last hl hw hr)]
  simp [write]
  omega

lemma scanString_write_heredoc (hl : IsWord l) (hw : w.all isHorizontal = true)
    (hreturn : '\r' ∉ s) (hs : ¬l <:+: s) (hr : WordEnds r) (quoted : Bool) :
    scanString modes mark.length (mark ++ ((heredoc l w quoted).write s ++ r)) =
      some ⟨.heredoc, (mark ++ (heredoc l w quoted).write s).length, modes⟩ := by
  obtain ⟨quotes, hquotes, hsingle, hwrite⟩ : ∃ quotes, IsQuotes quotes ∧
      (quotes == ['\'']) = false ∧ (heredoc l w quoted).write s = firstLine quotes l ++
        '\n' :: (indented w (escapeWith heredocSpecial s) ++ '\n' :: (w ++ l)) := by
    cases quoted
    · exact ⟨[], .inl rfl, rfl, rfl⟩
    · exact ⟨['"'], .inr (.inr rfl), rfl, rfl⟩
  have hclosing := closing_last hl hw hr
  have hplain := plainLength_indented hl hw hs hreturn (Option.isSome_of_eq_some hclosing)
  have hall : (heredoc l w quoted).write s ++ r = firstLine quotes l ++
      '\n' :: (indented w (escapeWith heredocSpecial s) ++ '\n' :: (w ++ (l ++ r))) := by
    simp [hwrite]
  have hlabel : heredocStart ((mark ++ ((heredoc l w quoted).write s ++ r)).drop mark.length) =
      some ((firstLine quotes l).length, l, false) := by
    rw [List.drop_left, hall, heredocStart_firstLine hquotes hl, hsingle]
  rw [hall] at hlabel ⊢
  rw [scanString_firstLine, scanHeredoc_heredoc hlabel, scanTemplate_closed modes .heredoc
    (drop_firstLine mark quotes l _)
    (by rw [hplain, List.drop_succ_cons, List.drop_left]; exact hclosing), hplain, hwrite]
  simp
  omega

end Write

/-- **A literal is one token**, in whatever code it stands. -/
lemma scanCode_write {style : Style} {mark : List Char} (hfits : style.Fits s)
    (hmark : mark ∈ marks) (hr : WordEnds r) (modes : List Mode) :
    scanCode modes (mark ++ (style.write s ++ r)) =
      ⟨style.tokenKind, (mark ++ style.write s).length, modes⟩ := by
  have hstring : scanString modes mark.length (mark ++ (style.write s ++ r)) =
      some ⟨style.tokenKind, (mark ++ style.write s).length, modes⟩ := by
    cases style with
    | single => exact scanString_write_single modes mark s r
    | double => exact scanString_write_double modes mark s r
    | nowdoc l w =>
      obtain ⟨hl, hw, hreturn, hs⟩ := hfits
      exact scanString_write_nowdoc modes mark hl hw hreturn hs hr
    | heredoc l w quoted =>
      obtain ⟨hl, hw, hreturn, hs⟩ := hfits
      exact scanString_write_heredoc modes mark hl hw hreturn hs hr quoted
  obtain ⟨c, x, hx, hc⟩ : ∃ c x, style.write s ++ r = c :: x ∧ c ∈ opening := by
    cases style with
    | single => exact ⟨'\'', _, rfl, by decide⟩
    | double => exact ⟨'"', _, rfl, by decide⟩
    | nowdoc l w => exact ⟨'<', _, rfl, by decide⟩
    | heredoc l w quoted => exact ⟨'<', _, rfl, by decide⟩
  rw [hx] at hstring ⊢
  simp only [marks, List.mem_cons, List.not_mem_nil, or_false] at hmark
  rcases hmark with rfl | rfl | rfl
  · have hcode : scanCode modes (c :: x) =
        (scanString modes 0 (c :: x)).getD (scanSymbol modes (c :: x)) := by
      simp only [opening, List.mem_cons, List.not_mem_nil, or_false] at hc
      rcases hc with rfl | rfl | rfl <;> rfl
    exact hcode.trans (by rw [List.length_nil, List.nil_append] at hstring; rw [hstring]; rfl)
  · have hcode : scanCode modes ('b' :: c :: x) = (scanString modes 1 ('b' :: c :: x)).getD
        ⟨.word, (('b' :: c :: x).takeWhile isWordPart).length, modes⟩ := rfl
    exact hcode.trans (congrArg (Option.getD · _) hstring)
  · have hcode : scanCode modes ('B' :: c :: x) = (scanString modes 1 ('B' :: c :: x)).getD
        ⟨.word, (('B' :: c :: x).takeWhile isWordPart).length, modes⟩ := rfl
    exact hcode.trans (congrArg (Option.getD · _) hstring)

lemma scans_write {style : Style} {mark : List Char} (hfits : style.Fits s) (hmark : mark ∈ marks)
    (hr : WordEnds r) : Scans ⟨style.tokenKind, mark ++ style.write s, false⟩ r := by
  refine ⟨?_, rfl, ?_, fun {modes} hm => ⟨modes, hm, ?_⟩⟩
  · cases style <;> simp [write, firstLine]
  · simp only [marks, List.mem_cons, List.not_mem_nil, or_false] at hmark
    rcases hmark with rfl | rfl | rfl
    · cases style <;> exact noGap_cons (by decide) (by decide) _
    · exact noGap_cons (by decide) (by decide) _
    · exact noGap_cons (by decide) (by decide) _
  · rw [List.append_assoc]
    exact scanCode_write hfits hmark hr modes

/-! ### A source with a literal -/

/-- A source that assigns what a literal stands for. -/
def assigning (literal : List Char) : String :=
  String.ofList ("<?php\n$x = ".toList ++ literal ++ ";\n".toList)

def assigningTokens (k : TokenKind) (literal g : List Char) : List Token :=
  [variableAt g ['x'], ⟨[' '], .symbol, ['='], false⟩, ⟨[' '], k, literal, false⟩, markAt [] ';',
    ⟨['\n'], .stop, [], false⟩]

lemma length_assigningTokens (k : TokenKind) (literal g : List Char) :
    (assigningTokens k literal g).length = 5 := rfl

lemma scans_equals (h : r.head? = some ' ') : Scans ⟨.symbol, ['='], false⟩ r := by
  cases r with
  | nil => cases h
  | cons c r =>
    obtain rfl : c = ' ' := by simpa using h
    exact ⟨by simp, rfl, noGap_cons (by decide) rfl _, fun {modes} hm => ⟨modes, hm, rfl⟩⟩

lemma tokens_assigning {style : Style} {mark : List Char} (hfits : style.Fits s)
    (hmark : mark ∈ marks) : tokens (assigning (mark ++ style.write s)) =
      assigningTokens style.tokenKind (mark ++ style.write s) ("<?php".toList ++ ['\n']) := by
  let literal : Token := ⟨[' '], style.tokenKind, mark ++ style.write s, false⟩
  let sign : Token := ⟨[' '], .symbol, ['='], false⟩
  let rest : List Token := [markAt [] ';', ⟨['\n'], .stop, [], false⟩]
  have hspace : Blank [' '] := by decide
  have hstop : Spaced [⟨['\n'], .stop, [], false⟩] := .stop (by decide)
  have hrest : Spaced rest := (hstop.tightMark (by decide)).spaced
  have hends : WordEnds (writtenAll rest) := by
    intro c hc
    obtain rfl : ';' = c := by simpa [rest, writtenAll, Token.written, Token.text, markAt] using hc
    decide
  have hliteral : Spaced (literal :: rest) := .cons hspace (scans_write hfits hmark hends) hrest
  have hsign : Spaced (sign :: literal :: rest) := .cons hspace (scans_equals rfl) hliteral
  have hvariable : Scans (variableAt ['\n'] ['x']).lexeme (writtenAll (sign :: literal :: rest)) :=
    scans_variable (by decide) (hsign.parted ⟨by simp [sign], hspace⟩).apart
  have hstart : "<?php\n$x = ".toList = "<?php".toList ++ ['\n', '$', 'x', ' ', '=', ' '] := rfl
  have hsemicolon : ";\n".toList = [';', '\n'] := rfl
  have hsource : assigning (mark ++ style.write s) = String.ofList ("<?php".toList ++
      writtenAll (variableAt ['\n'] ['x'] :: sign :: literal :: rest)) := by
    have hparts : "<?php\n$x = ".toList ++ (mark ++ style.write s) ++ ";\n".toList =
        "<?php".toList ++ ['\n', '$', 'x', ' ', '=', ' '] ++ (mark ++ style.write s) ++
          [';', '\n'] := congrArg₂ (fun a b => a ++ (mark ++ style.write s) ++ b) hstart hsemicolon
    refine congrArg String.ofList (hparts.trans ?_)
    generalize "<?php".toList = tag
    simp [sign, literal, rest, writtenAll, Token.written, Token.text, markAt, variableAt]
  rw [hsource]
  exact tokens_spaced (show Blank ['\n'] by decide) hvariable hsign

def assignedTree (style : Style) (literal : List Char) : Tree :=
  .node style.kind [.leaf ⟨[' '], style.tokenKind, literal, false⟩]

def assigningTree (style : Style) (literal g : List Char) : Tree :=
  .node .program [
    .node .statement [
      .node .assignment [.node .variableName [.leaf (variableAt g ['x'])],
        .leaf ⟨[' '], .symbol, ['='], false⟩, assignedTree style literal],
      .leaf (markAt [] ';')],
    .leaf ⟨['\n'], .stop, [], false⟩]

lemma reads_assigning (style : Style) (literal g : List Char) :
    Reads Rules.grammar 90 Rules.program (assigningTokens style.tokenKind literal g)
      [assigningTree style literal g] [] := by
  cases style <;> rfl

lemma parse_assigning {style : Style} {mark : List Char} (hfits : style.Fits s)
    (hmark : mark ∈ marks) : parse (assigning (mark ++ style.write s)) =
      some (assigningTree style (mark ++ style.write s) ("<?php".toList ++ ['\n'])) := by
  have hread := (reads_assigning style (mark ++ style.write s) ("<?php".toList ++ ['\n'])).mono
    (j := stepsPerToken * (5 + 1)) (by rw [stepsPerToken]; omega)
  rw [parse, tokens_assigning hfits hmark, parseTokens, length_assigningTokens, hread]

/-- **Literals stand for the texts that they were written for.** However a text is written, with or
without a mark in front, the literal is one token in whatever code it stands, and stands for just
this text. So it does where it is assigned. -/
theorem value?_assigning {style : Style} {mark : List Char} {s : String}
    (hfits : style.Fits s.toList) (hmark : mark ∈ marks) :
    let literal := mark ++ style.write s.toList
    (∀ modes r, WordEnds r →
      scanCode modes (literal ++ r) = ⟨style.tokenKind, literal.length, modes⟩) ∧
    (∀ t : Tree, t.kind? = some style.kind → t.text = literal → value? t = some s) ∧
    ∃ root t, parse (assigning literal) = some root ∧
      (root.find? (·.is .assignment)).bind (·.nodes[1]?) = some t ∧
      t.kind? = some style.kind ∧ t.text = literal ∧ value? t = some s := by
  intro literal
  have hvalue (t : Tree) (hkind : t.kind? = some style.kind) (htext : t.text = literal) :
      value? t = some s := by
    rw [value?_write hfits hmark hkind htext, String.ofList_toList]
  have htext : (assignedTree style literal).text = literal := by
    rw [Tree.text, assignedTree, Tree.tokens, Tree.tokensAll, Tree.tokens, Tree.tokensAll]
    simp [Tree.joinTokens, Token.text]
  refine ⟨fun modes r hr => ?_, hvalue, _, assignedTree style literal,
    parse_assigning hfits hmark, rfl, rfl, htext, hvalue _ rfl htext⟩
  rw [List.append_assoc]
  exact scanCode_write hfits hmark hr modes

def exampleText : String := "$a = '\x7b$b\x7d\\';\n\n\t\"\\n\"\n"

def exampleStyles : List Style :=
  let label := "EOT".toList
  let indent := "  ".toList
  [single, double, nowdoc label indent, heredoc label indent false, heredoc label indent true]

/-- All of them give the same text. -/
theorem value?_assigning_example :
    assigning ('b' :: (heredoc "EOT".toList "  ".toList false).write exampleText.toList) =
      "<?php\n$x = b<<<EOT\n  \\$a = '\x7b\\$b\x7d\\\\';\n  \n  \t\"\\\\n\"\n  \n  EOT;\n" ∧
    ∀ style ∈ exampleStyles, ∀ mark ∈ marks, ∃ root t,
      parse (assigning (mark ++ style.write exampleText.toList)) = some root ∧
      (root.find? (·.is .assignment)).bind (·.nodes[1]?) = some t ∧
      value? t = some exampleText := by
  have hfits : ∀ style ∈ exampleStyles, style.Fits exampleText.toList := by decide +kernel
  refine ⟨by decide +kernel, fun style hstyle mark hmark => ?_⟩
  obtain ⟨-, -, root, t, hparse, ht, -, -, hvalue⟩ := value?_assigning (hfits style hstyle) hmark
  exact ⟨root, t, hparse, ht, hvalue⟩

end EloquentEntity.Syntax.Literal

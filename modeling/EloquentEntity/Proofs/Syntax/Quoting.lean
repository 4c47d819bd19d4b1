import EloquentEntity.Proofs.Syntax.StringEnd
import EloquentEntity.Syntax.Literal

/-!
Texts written as string literals, and what these stand for.

In quotes, and in a heredoc, some characters get a backslash in front. A heredoc and a nowdoc hold
the lines of the text between two lines of their own, all behind the same indentation.
-/

namespace EloquentEntity.Syntax.Literal

variable {meaning : Char → Option Char} {special s l w x z : List Char} {c : Char} {t : Tree}

/-! ### Escapes -/

def escapeWith (special s : List Char) : List Char :=
  s.flatMap fun c => if c ∈ special then ['\\', c] else [c]

@[simp] lemma escapeWith_nil (special : List Char) : escapeWith special [] = [] := rfl

lemma escapeWith_of_mem (h : c ∈ special) (s : List Char) :
    escapeWith special (c :: s) = '\\' :: c :: escapeWith special s := by
  rw [escapeWith, List.flatMap_cons, if_pos h]
  rfl

lemma escapeWith_of_notMem (h : c ∉ special) (s : List Char) :
    escapeWith special (c :: s) = c :: escapeWith special s := by
  rw [escapeWith, List.flatMap_cons, if_neg h]
  rfl

lemma escapeWith_append (special s z : List Char) :
    escapeWith special (s ++ z) = escapeWith special s ++ escapeWith special z :=
  List.flatMap_append

lemma unescape_escapeWith (hslash : '\\' ∈ special) (hspecial : ∀ c ∈ special, meaning c = some c)
    (s : List Char) : unescape meaning (escapeWith special s) = s := by
  induction s with
  | nil => rfl
  | cons c s ih =>
    by_cases hc : c ∈ special
    · rw [escapeWith_of_mem hc, unescape, hspecial c hc]
      dsimp only
      rw [ih]
    · have hne : c ≠ '\\' := fun h => hc (h ▸ hslash)
      rw [escapeWith_of_notMem hc, unescape.eq_3 _ _ _ (by simp [hne]), ih]

lemma notMem_escapeWith (hc : c ≠ '\\') (h : c ∉ s) : c ∉ escapeWith special s := by
  induction s with
  | nil => exact List.not_mem_nil
  | cons d s ih =>
    rw [List.mem_cons, not_or] at h
    by_cases hd : d ∈ special
    · rw [escapeWith_of_mem hd]
      simp [hc, h.1, ih h.2]
    · rw [escapeWith_of_notMem hd]
      simp [h.1, ih h.2]

lemma inner_quoted (q : Char) (s : List Char) : inner (q :: s ++ [q]) = s := by
  simp [inner]

/-! ### Lines -/

/-- Line by line: each line is followed by a line feed and the rest, or it is the last. -/
@[elab_as_elim]
lemma lines_induction {P : List Char → Prop} (last : ∀ l, '\n' ∉ l → P l)
    (line : ∀ l s, '\n' ∉ l → P s → P (l ++ '\n' :: s)) (s : List Char) : P s := by
  suffices h : ∀ l, '\n' ∉ l → P (l ++ s) from h [] List.not_mem_nil
  induction s with
  | nil =>
    intro l hl
    rw [List.append_nil]
    exact last l hl
  | cons c s ih =>
    intro l hl
    by_cases hc : c = '\n'
    · subst hc
      exact line l s hl (ih [] List.not_mem_nil)
    · rw [List.append_cons]
      exact ih _ (by simp [hl, Ne.symm hc])

def OneLine (l : List Char) : Prop := '\n' ∉ l ∧ '\r' ∉ l

lemma OneLine.append (hw : OneLine w) (hl : OneLine l) : OneLine (w ++ l) :=
  ⟨by simp [hw.1, hl.1], by simp [hw.2, hl.2]⟩

lemma splitLines_cons (hn : c ≠ '\n') (hr : c ≠ '\r') {ls : List (List Char)}
    (h : splitLines s = l :: ls) : splitLines (c :: s) = (c :: l) :: ls := by
  rw [splitLines.eq_4 _ _ (by simp [hr]) (by simp [hn]), h]

lemma splitLines_append (hl : OneLine l) {ls : List (List Char)} (h : splitLines s = x :: ls) :
    splitLines (l ++ s) = (l ++ x) :: ls := by
  induction l with
  | nil => exact h
  | cons c l ih =>
    simp only [OneLine, List.mem_cons, not_or] at hl
    exact splitLines_cons (Ne.symm hl.1.1) (Ne.symm hl.2.1) (ih ⟨hl.1.2, hl.2.2⟩)

lemma splitLines_line (hl : OneLine l) (s : List Char) :
    splitLines (l ++ '\n' :: s) = l :: splitLines s := by
  have := splitLines_append hl (s := '\n' :: s) rfl
  rwa [List.append_nil] at this

lemma splitLines_last (hl : OneLine l) : splitLines l = [l] := by
  have := splitLines_append hl (s := []) rfl
  rwa [List.append_nil] at this

lemma exists_splitLines_eq (s : List Char) : ∃ l ls, splitLines s = l :: ls := by
  fun_cases splitLines s <;> exact ⟨_, _, rfl⟩

lemma joinLines_splitLines (h : '\r' ∉ s) : joinLines (splitLines s) = s := by
  induction s using lines_induction with
  | last l hl => rw [splitLines_last ⟨hl, h⟩, joinLines]
  | line l s hl ih =>
    simp only [List.mem_append, List.mem_cons, not_or] at h
    obtain ⟨l', ls, hs⟩ := exists_splitLines_eq s
    rw [splitLines_line ⟨hl, h.1⟩, hs, joinLines.eq_3 _ _ (by simp), ← hs, ih h.2.2]

def indented (w s : List Char) : List Char :=
  w ++ s.flatMap fun c => if c = '\n' then '\n' :: w else [c]

lemma indented_last (w : List Char) (hl : '\n' ∉ l) : indented w l = w ++ l := by
  rw [indented, List.append_cancel_left_eq]
  induction l with
  | nil => rfl
  | cons c l ih =>
    rw [List.mem_cons, not_or] at hl
    rw [List.flatMap_cons, if_neg (Ne.symm hl.1), ih hl.2]
    rfl

lemma indented_line (w : List Char) (hl : '\n' ∉ l) (s : List Char) :
    indented w (l ++ '\n' :: s) = w ++ l ++ '\n' :: indented w s := by
  have hfirst := indented_last w hl
  rw [indented, List.append_cancel_left_eq] at hfirst
  rw [indented, List.flatMap_append, hfirst, List.flatMap_cons, if_pos rfl, indented]
  simp

/-- Behind an indentation a text has the lines that it has. -/
lemma splitLines_indented (hw : OneLine w) (hs : '\r' ∉ s) (z : List Char) :
    splitLines (indented w s ++ '\n' :: z) = (splitLines s).map (w ++ ·) ++ splitLines z := by
  induction s using lines_induction with
  | last l hl =>
    rw [indented_last w hl, splitLines_line (hw.append ⟨hl, hs⟩), splitLines_last ⟨hl, hs⟩]
    rfl
  | line l s hl ih =>
    simp only [List.mem_append, List.mem_cons, not_or] at hs
    have hl : OneLine l := ⟨hl, hs.1⟩
    rw [indented_line w hl.1, List.append_assoc, List.cons_append, splitLines_line (hw.append hl),
      splitLines_line hl, ih hs.2.2]
    rfl

lemma oneLine_of_horizontal (hw : w.all isHorizontal = true) : OneLine w := by
  rw [List.all_eq_true] at hw
  exact ⟨fun h => absurd (hw _ h) (by decide), fun h => absurd (hw _ h) (by decide)⟩

lemma oneLine_of_word (hl : IsWord l) : OneLine l :=
  ⟨hl.notMem (by decide), hl.notMem (by decide)⟩

/-- The lines between the first line and the last are those of the text. -/
lemma body_indented (hx : OneLine x) (hw : w.all isHorizontal = true) (hl : IsWord l)
    (hs : '\r' ∉ s) : body (x ++ '\n' :: (indented w s ++ '\n' :: (w ++ l))) = s := by
  have hblank := oneLine_of_horizontal hw
  have hlast : OneLine (w ++ l) := hblank.append (oneLine_of_word hl)
  have hindent : (w ++ l).takeWhile (fun c => c == ' ' || c == '\t') = w := by
    have := takeWhile_blanks (r := []) hw (.inl rfl) hl
    rwa [List.append_nil] at this
  have hdrop : ((splitLines s).map (w ++ ·)).map (·.drop w.length) = splitLines s := by
    rw [List.map_map]
    exact (List.map_congr_left fun l _ => List.drop_left).trans (List.map_id _)
  rw [body, splitLines_line hx, splitLines_indented hblank hs, splitLines_last hlast,
    ← List.cons_append, List.getLast?_concat, Option.getD_some, hindent, List.cons_append,
    List.drop_one, List.tail_cons, List.dropLast_concat, hdrop, joinLines_splitLines hs]

/-! ### The four ways to write a text -/

/-- How a text is written: in quotes, or line by line with a label and an indentation. The label
of a heredoc may stand in double quotes. -/
inductive Style where
  | single
  | double
  | nowdoc (label indent : List Char)
  | heredoc (label indent : List Char) (quoted : Bool)
  deriving DecidableEq, Repr

namespace Style

def kind : Style → Kind
  | single => .singleQuoted
  | double => .doubleQuoted
  | nowdoc .. => .nowdoc
  | heredoc .. => .heredoc

def heredocSpecial : List Char := ['\\', '$']

/-- The line before the first line of a text: the label, which may stand in quotes. -/
def firstLine (quotes label : List Char) : List Char := "<<<".toList ++ quotes ++ label ++ quotes

def write (s : List Char) : Style → List Char
  | single => '\'' :: escapeWith ['\\', '\''] s ++ ['\'']
  | double => '"' :: escapeWith ['\\', '"', '$'] s ++ ['"']
  | nowdoc l w => firstLine ['\''] l ++ '\n' :: (indented w s ++ '\n' :: (w ++ l))
  | heredoc l w quoted =>
    firstLine (if quoted then ['"'] else []) l ++
      '\n' :: (indented w (escapeWith heredocSpecial s) ++ '\n' :: (w ++ l))

/-- A text between labels has no carriage return, and the label does not come in it. -/
def Fits (s : List Char) : Style → Prop
  | single | double => True
  | nowdoc l w | heredoc l w _ =>
    IsWord l ∧ w.all isHorizontal = true ∧ '\r' ∉ s ∧ ¬l <:+: s

instance (s : List Char) (style : Style) : Decidable (style.Fits s) :=
  match style with
  | single | double => inferInstanceAs (Decidable True)
  | nowdoc .. | heredoc .. => inferInstanceAs (Decidable (_ ∧ _))

lemma oneLine_firstLine (hl : IsWord l) {quotes : List Char} (hquotes : IsQuotes quotes) :
    OneLine (firstLine quotes l) := by
  have hlabel := oneLine_of_word hl
  rcases hquotes with rfl | rfl | rfl <;> simpa [OneLine, firstLine] using hlabel

end Style

def marks : List (List Char) := [[], ['b'], ['B']]

lemma withoutMark_write {mark : List Char} (hmark : mark ∈ marks) (style : Style) (s : List Char) :
    withoutMark (mark ++ style.write s) = style.write s := by
  simp only [marks, List.mem_cons, List.not_mem_nil, or_false] at hmark
  rcases hmark with rfl | rfl | rfl
  · cases style <;> rfl
  · rfl
  · rfl

/-- A literal stands for the text that it was written for. -/
lemma value?_write {style : Style} {mark : List Char} (hfits : style.Fits s) (hmark : mark ∈ marks)
    (hkind : t.kind? = some style.kind) (htext : t.text = mark ++ style.write s) :
    value? t = some (String.ofList s) := by
  rw [value?, htext, withoutMark_write hmark, hkind]
  cases style with
  | single =>
    refine congrArg (some <| String.ofList ·) ?_
    rw [Style.write, inner_quoted]
    exact unescape_escapeWith (by simp) (by simp [singleEscape]) s
  | double =>
    refine congrArg (some <| String.ofList ·) ?_
    rw [Style.write, inner_quoted]
    exact unescape_escapeWith (by simp) (by simp [doubleEscape, heredocEscape]) s
  | nowdoc l w =>
    refine congrArg (some <| String.ofList ·) ?_
    obtain ⟨hl, hw, hs, -⟩ := hfits
    exact body_indented (Style.oneLine_firstLine hl (.inr (.inl rfl))) hw hl hs
  | heredoc l w quoted =>
    refine congrArg (some <| String.ofList ·) ?_
    obtain ⟨hl, hw, hs, -⟩ := hfits
    have hs : '\r' ∉ escapeWith Style.heredocSpecial s := notMem_escapeWith (by decide) hs
    refine (congrArg _ (body_indented (Style.oneLine_firstLine hl ?_) hw hl hs)).trans
      (unescape_escapeWith (by decide) (by simp [Style.heredocSpecial, heredocEscape]) s)
    cases quoted
    · exact .inl rfl
    · exact .inr (.inr rfl)

end EloquentEntity.Syntax.Literal

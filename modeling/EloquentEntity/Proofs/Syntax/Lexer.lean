import EloquentEntity.Proofs.Text.Ascii
import EloquentEntity.Proofs.Text.Ends
import EloquentEntity.Syntax.Lexer

/-!
Token lists that the lexer reads back from their text.

A list is spaced when white space or punctuation parts its words. Between braces and outside of
them the lexer then finds exactly these tokens, since each is scanned off the front of what is left.
-/

namespace EloquentEntity.Syntax

variable {s r g w : List Char} {c : Char} {modes : List Mode} {t : Token} {ts : List Token}

/-! ### Gaps -/

def Blank (g : List Char) : Prop := ∀ c ∈ g, c = ' ' ∨ c = '\n'

instance (g : List Char) : Decidable (Blank g) := List.decidableBAll (fun c => c = ' ' ∨ c = '\n') g

def NoGap (s : List Char) : Prop := pieceLength s = 0

lemma gapLength_blank (hg : Blank g) (hs : NoGap s) : gapLength 0 (g ++ s) = (g.length, false) := by
  induction g with
  | nil =>
    cases s with
    | nil => rfl
    | cons c s => rw [List.nil_append, gapLength, hs]; rfl
  | cons c g ih =>
    have hlength : pieceLength (c :: (g ++ s)) = 1 := by
      rcases hg c (by simp) with rfl | rfl <;> rfl
    have hmark : (c == '?') = false := by
      rcases hg c (by simp) with rfl | rfl <;> rfl
    rw [List.cons_append, gapLength, hlength]
    dsimp only
    rw [ih fun d hd => hg d (by simp [hd])]
    simp [hmark]

lemma gap_blank (hg : Blank g) (hs : NoGap s) : gap (g ++ s) = ⟨g, false, s⟩ := by
  rw [gap, gapLength_blank hg hs]
  simp

/-! ### One token -/

def InBlocks (modes : List Mode) : Prop := ∀ m ∈ modes, m = .block

lemma scan_inBlocks (h : InBlocks modes) (s : List Char) : scan modes s = scanCode modes s := by
  rcases modes with _ | ⟨m, modes⟩
  · simp [scan]
  · obtain rfl := h m (by simp)
    simp [scan]

lemma isTight_inBlocks (h : InBlocks modes) : isTight modes = false := by
  rcases modes with _ | ⟨m, modes⟩
  · rfl
  · obtain rfl := h m (by simp)
    rfl

/-- A lexeme is scanned off the front of its text before `s`. -/
structure Scans (l : Lexeme) (s : List Char) : Prop where
  text_ne : l.text ≠ []
  afterTag : l.afterTag = false
  noGap : NoGap (l.text ++ s)
  scan : ∀ {modes}, InBlocks modes → ∃ modes', InBlocks modes' ∧
    scanCode modes (l.text ++ s) = ⟨l.kind, l.text.length, modes'⟩

/-- Where a word that stands before has ended, and is no mark of a string. -/
def Apart (s : List Char) : Prop :=
  ∀ c ∈ s.head?, isWordPart c = false ∧ c ≠ '\'' ∧ c ≠ '"' ∧ c ≠ '<'

def IsWord (w : List Char) : Prop := startsWord w = true ∧ w.all isWordPart = true

instance (w : List Char) : Decidable (IsWord w) := inferInstanceAs (Decidable (_ ∧ _))

lemma IsWord.notMem (h : IsWord w) (hc : isWordPart c = false) : c ∉ w := by
  intro hm
  have := List.all_eq_true.mp h.2 c hm
  simp [hc] at this

lemma takeWhile_apart (hw : w.all isWordPart = true) (hs : Apart s) :
    (w ++ s).takeWhile isWordPart = w :=
  Text.takeWhile_append_stop (List.all_eq_true.mp hw) fun c hc => (hs c hc).1

lemma toNat_of_isWordPart (h : isWordPart c = true) : 48 ≤ c.toNat := by
  simp only [isWordPart, isWordStart, Bool.or_eq_true, Bool.and_eq_true] at h
  rcases h with ((h | h) | h) | h
  · have := toNat_of_isAlpha h
    omega
  · obtain rfl : c = '_' := by simpa using h
    decide
  · have : 0x80 ≤ c.toNat := by simpa using h.1.1
    omega
  · exact (isDigit_iff.mp h).1

lemma isSpace_of_isWordStart (h : isWordStart c = true) : isSpace c = false := by
  simp only [isWordStart, Bool.or_eq_true, Bool.and_eq_true, Bool.not_eq_true'] at h
  rcases h with (h | h) | h
  · have hnat := toNat_of_isAlpha h
    have hne (d : Char) (hd : d.toNat < 65 ∨ 122 < d.toNat) : (c == d) = false := by
      rw [beq_eq_false_iff_ne]
      rintro rfl
      omega
    have hrange : (9 ≤ c.toNat && c.toNat ≤ 13 : Bool) = false := by
      simp
      omega
    simp [isSpace, hrange, hne]
  · obtain rfl : c = '_' := by simpa using h
    rfl
  · exact h.2

/-- A character that starts neither a comment nor a tag nor white space. -/
lemma noGap_cons (h : c ∉ ['/', '#', '?']) (hc : isSpace c = false) (s : List Char) :
    NoGap (c :: s) := by
  simp only [List.mem_cons, List.not_mem_nil, or_false, not_or] at h
  rw [NoGap, pieceLength.eq_def]
  split <;> simp_all

/-- A word that starts with the letter of a marked string is none. -/
lemma scanString_apart (hw : w.all isWordPart = true) (hs : Apart s) :
    scanString modes 1 (c :: (w ++ s)) = none := by
  have hquote : ∀ d ∈ (w ++ s).head?, d ≠ '\'' ∧ d ≠ '"' ∧ d ≠ '<' := by
    cases w with
    | nil => exact fun d hd => (hs d hd).2
    | cons d w =>
      intro e he
      obtain rfl : d = e := by simpa using he
      have hd : isWordPart d = true := List.all_eq_true.mp hw d (by simp)
      refine ⟨?_, ?_, ?_⟩ <;> rintro rfl <;> exact absurd hd (by decide)
  rw [scanString, List.drop_one, List.tail_cons]
  split
  · next h => simp [h] at hquote
  · next h => simp [h] at hquote
  · next h => simp [h] at hquote
  · rfl

lemma scans_word (hw : IsWord w) (hs : Apart s) : Scans ⟨.word, w, false⟩ s := by
  obtain ⟨hstart, hall⟩ := hw
  rcases w with _ | ⟨c, w⟩
  · simp [startsWord] at hstart
  have hc : isWordStart c = true := hstart
  have hw : w.all isWordPart = true := by
    rw [List.all_cons, Bool.and_eq_true] at hall
    exact hall.2
  refine ⟨by simp, rfl, noGap_cons ?_ (isSpace_of_isWordStart hc) _,
    fun {modes} hm => ⟨modes, hm, ?_⟩⟩
  · simp only [List.mem_cons, List.not_mem_nil, or_false]
    rintro (rfl | rfl | rfl) <;> exact absurd hc (by decide)
  · have hlength := takeWhile_apart hall hs
    rw [List.cons_append] at hlength ⊢
    rw [scanCode, if_pos hc, scanWord, hlength]
    dsimp only
    rw [scanString_apart hw hs]
    simp

lemma scans_variable (hw : IsWord w) (hs : Apart s) :
    Scans ⟨.variableName, '$' :: w, false⟩ s := by
  have hstart : startsWord (w ++ s) = true := by
    rcases w with _ | ⟨c, w⟩
    · exact absurd hw.1 (by simp [startsWord])
    · exact hw.1
  refine ⟨by simp, rfl, noGap_cons (by decide) (by decide) _, fun {modes} hm => ⟨modes, hm, ?_⟩⟩
  rw [List.cons_append, scanCode, if_neg (by decide), hstart, if_pos (by decide),
    takeWhile_apart hw.2 hs]
  rfl

def punctuation : List Char := ['(', ')', ',', ';', '\\', '\x7b', '\x7d']

lemma scanCode_punctuation (hc : c ∈ punctuation) (s : List Char) (hm : InBlocks modes) :
    ∃ modes', InBlocks modes' ∧ scanCode modes (c :: s) = ⟨.symbol, 1, modes'⟩ := by
  simp only [punctuation, List.mem_cons, List.not_mem_nil, or_false] at hc
  rcases hc with rfl | rfl | rfl | rfl | rfl | rfl | rfl
  case inr.inr.inr.inr.inr.inl =>
    refine ⟨.block :: modes, fun m h => ?_, rfl⟩
    rcases List.mem_cons.mp h with rfl | h
    · rfl
    · exact hm m h
  case inr.inr.inr.inr.inr.inr =>
    refine ⟨if modes.head? = some .block then modes.tail else modes, ?_, rfl⟩
    split
    · exact fun m h => hm m (List.mem_of_mem_tail h)
    · exact hm
  all_goals exact ⟨modes, hm, rfl⟩

lemma scans_punctuation (hc : c ∈ punctuation) (s : List Char) :
    Scans ⟨.symbol, [c], false⟩ s := by
  refine ⟨by simp, rfl, ?_, fun hm => scanCode_punctuation hc s hm⟩
  simp only [punctuation, List.mem_cons, List.not_mem_nil, or_false] at hc
  rcases hc with rfl | rfl | rfl | rfl | rfl | rfl | rfl <;> exact noGap_cons (by decide) rfl s

/-! ### Token lists -/

def writtenAll (ts : List Token) : List Char := ts.flatMap Token.written

lemma writtenAll_append (ts ts' : List Token) :
    writtenAll (ts ++ ts') = writtenAll ts ++ writtenAll ts' := List.flatMap_append

/-- Every token is scanned off the front of what is left, and the end of the source comes last. -/
inductive Spaced : List Token → Prop
  | stop {g : List Char} : Blank g → Spaced [⟨g, .stop, [], false⟩]
  | cons {t : Token} {ts : List Token} :
      Blank t.gap → Scans t.lexeme (writtenAll ts) → Spaced ts → Spaced (t :: ts)

lemma Scans.tokensFrom_succ {l : Lexeme} (h : Scans l s) (hm : InBlocks modes) (fuel : Nat)
    (g : List Char) (afterTag : Bool) :
    ∃ modes', InBlocks modes' ∧ tokensFrom (fuel + 1) modes ⟨g, afterTag, l.text ++ s⟩ =
      ⟨g, l.kind, l.text, afterTag⟩ :: tokensFrom fuel modes' (gap s) := by
  obtain ⟨modes', hm', hscan⟩ := h.scan hm
  obtain ⟨n, hn⟩ := Nat.exists_eq_succ_of_ne_zero (mt List.length_eq_zero_iff.mp h.text_ne)
  have htake : (l.text ++ s).take (n + 1) = l.text := List.take_left' hn
  have hdrop : (l.text ++ s).drop (n + 1) = s := List.drop_left' hn
  rw [hn] at hscan
  refine ⟨modes', hm', ?_⟩
  rw [tokensFrom, scan_inBlocks hm, hscan]
  dsimp only
  rw [htake, hdrop, isTight_inBlocks hm']
  rfl

lemma Spaced.tokensFrom_eq (h : Spaced ts) {fuel : Nat} (hf : ts.length ≤ fuel)
    (hm : InBlocks modes) : tokensFrom fuel modes (gap (writtenAll ts)) = ts := by
  induction h generalizing fuel modes with
  | @stop g hg =>
    obtain ⟨fuel, rfl⟩ : ∃ n, fuel = n + 1 := ⟨fuel - 1, by simp at hf; omega⟩
    have hgap : gap (writtenAll [⟨g, .stop, [], false⟩]) = ⟨g, false, []⟩ := by
      simpa [writtenAll, Token.written, Token.text] using gap_blank hg (s := []) rfl
    rw [hgap, tokensFrom, scan_inBlocks hm]
    rfl
  | @cons t ts hg hscan _ ih =>
    obtain ⟨fuel, rfl⟩ : ∃ n, fuel = n + 1 := ⟨fuel - 1, by simp at hf; omega⟩
    have hgap : gap (writtenAll (t :: ts)) = ⟨t.gap, false, t.text ++ writtenAll ts⟩ := by
      have := gap_blank hg hscan.noGap
      simpa [writtenAll, Token.written, Token.text] using this
    obtain ⟨modes', hm', hhere⟩ := hscan.tokensFrom_succ hm fuel t.gap false
    rw [hgap, Token.text, hhere, ih (by simpa using hf) hm', ← hscan.afterTag]

lemma Spaced.length_le (h : Spaced ts) : ts.length ≤ (writtenAll ts).length + 1 := by
  induction h with
  | stop => simp
  | @cons t ts _ hscan _ ih =>
    have := List.length_pos_iff.mpr hscan.text_ne
    simp only [writtenAll, List.flatMap_cons, List.length_append, Token.written, Token.text,
      List.length_cons] at ih ⊢
    omega

/-- **Spaced tokens are read back.** A source that is an opening tag and then the text of a spaced
list has the tokens of that list, with the tag in the first gap. -/
lemma tokens_spaced (hg : Blank t.gap) (hscan : Scans t.lexeme (writtenAll ts)) (hs : Spaced ts) :
    tokens (String.ofList ("<?php".toList ++ writtenAll (t :: ts))) =
      { t with gap := "<?php".toList ++ t.gap } :: ts := by
  have hgap : gap (writtenAll (t :: ts)) = ⟨t.gap, false, t.lexeme.text ++ writtenAll ts⟩ := by
    have := gap_blank hg hscan.noGap
    simpa [writtenAll, Token.written, Token.text] using this
  have hlength : ts.length ≤ ("<?php".toList ++ writtenAll (t :: ts)).length := by
    have := hs.length_le
    have htag : "<?php".toList.length = 5 := rfl
    simp only [writtenAll, List.flatMap_cons, List.length_append] at this ⊢
    omega
  have houtside : outsideLength ("<?php".toList ++ writtenAll (t :: ts)) = 5 := rfl
  have htake : ("<?php".toList ++ writtenAll (t :: ts)).take 5 = "<?php".toList := rfl
  have hdrop : ("<?php".toList ++ writtenAll (t :: ts)).drop 5 = writtenAll (t :: ts) := rfl
  have hnone : InBlocks [] := fun _ h => by cases h
  obtain ⟨modes, hm, hfirst⟩ := hscan.tokensFrom_succ hnone
    ("<?php".toList ++ writtenAll (t :: ts)).length ("<?php".toList ++ t.gap) false
  rw [tokens, String.toList_ofList, houtside, htake, hdrop, hgap, hfirst,
    hs.tokensFrom_eq hlength hm, ← hscan.afterTag]

/-! ### Putting spaced lists together -/

def wordAt (g w : List Char) : Token := ⟨g, .word, w, false⟩

def variableAt (g w : List Char) : Token := ⟨g, .variableName, '$' :: w, false⟩

def markAt (g : List Char) (c : Char) : Token := ⟨g, .symbol, [c], false⟩

/-- A spaced list that may stand after a word. -/
structure Parted (ts : List Token) : Prop where
  spaced : Spaced ts
  apart : Apart (writtenAll ts)

/-- A gap that parts words. -/
def IsGap (g : List Char) : Prop := g ≠ [] ∧ Blank g

instance (g : List Char) : Decidable (IsGap g) := inferInstanceAs (Decidable (_ ∧ _))

/-- A token after a gap may stand after a word. -/
lemma Spaced.parted (h : Spaced (t :: ts)) (hg : IsGap t.gap) : Parted (t :: ts) := by
  refine ⟨h, fun e he => ?_⟩
  obtain ⟨d, g, hd⟩ := List.exists_cons_of_ne_nil hg.1
  obtain rfl : d = e := by simpa [writtenAll, Token.written, hd] using he
  rcases hg.2 d (by simp [hd]) with rfl | rfl <;> decide

lemma Parted.word (h : Parted ts) (hg : IsGap g) (hw : IsWord w) : Parted (wordAt g w :: ts) :=
  (Spaced.cons hg.2 (scans_word hw h.apart) h.spaced).parted hg

lemma Parted.tightWord (h : Parted ts) (hw : IsWord w) : Spaced (wordAt [] w :: ts) :=
  .cons (show Blank [] by decide) (scans_word hw h.apart) h.spaced

lemma Parted.variable (h : Parted ts) (hg : IsGap g) (hw : IsWord w) :
    Parted (variableAt g w :: ts) :=
  (Spaced.cons hg.2 (scans_variable hw h.apart) h.spaced).parted hg

lemma Spaced.mark (h : Spaced ts) (hg : IsGap g) (hc : c ∈ punctuation) :
    Parted (markAt g c :: ts) :=
  (Spaced.cons hg.2 (scans_punctuation hc _) h).parted hg

lemma Spaced.tightMark (h : Spaced ts) (hc : c ∈ punctuation) : Parted (markAt [] c :: ts) := by
  refine ⟨.cons (show Blank [] by decide) (scans_punctuation hc _) h, fun e he => ?_⟩
  obtain rfl : c = e := by simpa [writtenAll, Token.written, Token.text, markAt] using he
  clear he
  simp only [punctuation, List.mem_cons, List.not_mem_nil, or_false] at hc
  rcases hc with rfl | rfl | rfl | rfl | rfl | rfl | rfl <;> decide

end EloquentEntity.Syntax

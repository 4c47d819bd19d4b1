import EloquentEntity.Proofs.Entity.Legible
import EloquentEntity.Proofs.Syntax.NodeRules

/-!
Trees whose tokens are given.

A tree spells out patterns if its tokens fit them one by one, with nothing but white space in
between. Of a name that is spelled out, the text is known, and so is how the grammar reads it.
-/

namespace EloquentEntity.Syntax

open Syntax.Tree

def Fit (ts : List Token) (ps : List Pattern) : Prop :=
  List.Forall₂ (fun (t : Token) p => p.accepts t.lexeme = true) ts ps

instance (ts : List Token) (ps : List Pattern) : Decidable (Fit ts ps) :=
  inferInstanceAs (Decidable (List.Forall₂ _ ts ps))

/-- Nothing but white space stands between the tokens. -/
def Tight (ts : List Token) : Prop := ∀ t ∈ ts.tail, Text.withoutBlanks t.gap = []

instance (ts : List Token) : Decidable (Tight ts) :=
  inferInstanceAs (Decidable (∀ t ∈ ts.tail, Text.withoutBlanks t.gap = []))

/-- The tree is spelled out by the patterns. -/
structure Tree.Spells (t : Tree) (ps : List Pattern) : Prop where
  fit : Fit t.tokens ps
  tight : Tight t.tokens

instance (t : Tree) (ps : List Pattern) : Decidable (t.Spells ps) :=
  decidable_of_iff (Fit t.tokens ps ∧ Tight t.tokens) ⟨fun ⟨h, h'⟩ => ⟨h, h'⟩, fun h => ⟨h.1, h.2⟩⟩

variable {t : Token} {ts : List Token} {p : Pattern} {ps : List Pattern} {n : Segments}

/-! ### Text -/

/-- The text of the tokens that fit, where there is only one. -/
def Pattern.text? : Pattern → Option (List Char)
  | .symbol s | .exactly s => some s.toList
  | _ => none

lemma Pattern.text_eq {s : List Char} (hp : p.text? = some s) (h : p.accepts t.lexeme = true) :
    t.text = s := by
  cases p <;> simp_all [text?, accepts, Token.text]

lemma Fit.texts_eq (h : Fit ts ps) {ss : List (List Char)} (hp : ps.map Pattern.text? = ss.map some) :
    ts.map Token.text = ss := by
  induction h generalizing ss with
  | nil =>
    rw [List.map_nil] at hp
    rw [List.map_nil, List.map_eq_nil_iff.mp hp.symm]
  | cons ht _ ih =>
    cases ss with
    | nil => cases hp
    | cons s ss =>
      rw [List.map_cons, List.map_cons, List.cons.injEq] at hp
      rw [List.map_cons, ih hp.2, Pattern.text_eq hp.1 ht]

lemma withoutBlanks_append (s s' : List Char) :
    Text.withoutBlanks (s ++ s') = Text.withoutBlanks s ++ Text.withoutBlanks s' :=
  List.filter_append ..

/-- White space between the tokens of a name is left out. -/
lemma withoutBlanks_joinTokens (h : Tight ts) :
    Text.withoutBlanks (joinTokens ts) = ts.flatMap fun t => Text.withoutBlanks t.text := by
  cases ts with
  | nil => rfl
  | cons t ts =>
    rw [joinTokens, withoutBlanks_append, List.flatMap_cons]
    congr 1
    rw [Tight, List.tail_cons] at h
    induction ts with
    | nil => rfl
    | cons u ts ih =>
      obtain ⟨hu, h⟩ := List.forall_mem_cons.mp h
      rw [List.flatMap_cons, List.flatMap_cons, withoutBlanks_append, Token.written,
        withoutBlanks_append, hu, List.nil_append, ih h]

/-! ### Names -/

/-- The tokens of a name, with a backslash in front or not. -/
def namePatterns (lead : Bool) (n : Segments) : List Pattern :=
  (if lead then [.symbol "\\"] else []) ++ .exactly (String.ofList n.first) ::
    n.more.flatMap fun w => [.symbol "\\", .exactly (String.ofList w)]

def nameTexts (lead : Bool) (n : Segments) : List (List Char) :=
  (if lead then [['\\']] else []) ++ n.first :: n.more.flatMap fun w => [['\\'], w]

lemma text?_namePatterns (lead : Bool) (n : Segments) :
    (namePatterns lead n).map Pattern.text? = (nameTexts lead n).map some := by
  have hmore (ws : List (List Char)) :
      (ws.flatMap fun w => [Pattern.symbol "\\", .exactly (String.ofList w)]).map Pattern.text? =
        (ws.flatMap fun w => [['\\'], w]).map some := by
    induction ws with
    | nil => rfl
    | cons w ws ih =>
      rw [List.flatMap_cons, List.flatMap_cons, List.map_append, List.map_append, ih]
      simp [Pattern.text?]
  cases lead <;> simp [namePatterns, nameTexts, hmore, Pattern.text?]

lemma flatten_nameTexts (lead : Bool) (n : Segments) :
    (nameTexts lead n).flatten = (if lead then ['\\'] else []) ++ n.text := by
  have hmore (ws : List (List Char)) :
      (ws.flatMap fun w => [['\\'], w]).flatten = ws.flatMap ('\\' :: ·) := by
    induction ws with
    | nil => rfl
    | cons w ws ih => simp [ih]
  cases lead <;> simp [nameTexts, Segments.text, hmore]

lemma withoutBlanks_of_mem {lead : Bool} (hw : ∀ w ∈ n.words, IsAsciiLabel w) {s : List Char}
    (hs : s ∈ nameTexts lead n) : Text.withoutBlanks s = s := by
  have hs : s = ['\\'] ∨ s ∈ n.words := by
    rw [nameTexts, List.mem_append, List.mem_cons, List.mem_flatMap] at hs
    obtain hs | rfl | ⟨w, hw, hs⟩ := hs
    · cases lead <;> simp_all
    · exact .inr List.mem_cons_self
    · obtain rfl | hs := List.mem_cons.mp hs
      · exact .inl rfl
      · exact .inr (List.mem_cons_of_mem _ (by rwa [List.mem_singleton.mp hs]))
  obtain rfl | hs := hs
  · rfl
  · exact List.filter_eq_self.mpr fun c hc => by simp [(hw s hs).isBlank_eq_false hc]

lemma nameText_of_spells {t : Tree} {lead : Bool} (h : t.Spells (namePatterns lead n))
    (hw : ∀ w ∈ n.words, IsAsciiLabel w) :
    t.nameText = String.ofList ((if lead then ['\\'] else []) ++ n.text) := by
  have htexts := h.fit.texts_eq (text?_namePatterns lead n)
  have hblank : (nameTexts lead n).map Text.withoutBlanks = nameTexts lead n :=
    (List.map_congr_left fun s hs => withoutBlanks_of_mem hw hs).trans (List.map_id _)
  rw [nameText, text, withoutBlanks_joinTokens h.tight, ← flatten_nameTexts, ← hblank, ← htexts,
    List.map_map, List.flatMap_def]
  rfl

/-! ### Reading a name -/

def pairRow (ps : List (Token × Token)) : List Token := ps.flatMap fun x => [x.1, x.2]

def IsStep (x : Token × Token) : Prop :=
  (Pattern.symbol "\\").accepts x.1.lexeme = true ∧ x.2.kind = .word

open Rules

lemma reads_segments_row {x : Token × Token} {xs : List (Token × Token)} (hx : IsStep x)
    (hxs : ∀ y ∈ xs, IsStep y) (ht : (Pattern.symbol "\\").accepts t.lexeme = false)
    (ts : List Token) :
    Reads grammar (xs.length + 5) segments (pairRow (x :: xs) ++ t :: ts)
      (leaves (pairRow (x :: xs))) (t :: ts) := by
  have hone {y : Token × Token} (hy : IsStep y) (ts : List Token) :
      Reads grammar 2 (.seq (Rule.sym "\\") word) (y.1 :: y.2 :: ts) (leaves [y.1, y.2]) ts :=
    (reads_token hy.1).seq (reads_token (p := .kind .word) (by
      simpa [Pattern.accepts, Token.kind] using hy.2))
  have hend : Fails grammar 2 (.seq (Rule.sym "\\") word) (t :: ts) :=
    Fails.seq_left (if_neg (by rw [ht]; simp))
  have hmore : Reads grammar _ (.many (.seq (Rule.sym "\\") word)) (pairRow xs ++ t :: ts)
      (xs.flatMap fun y => leaves [y.1, y.2]) (t :: ts) :=
    reads_many (fun _ => True) (fun _ _ _ => trivial) (fun y hy ts _ => hone (hxs y hy) ts)
      trivial hend
  have hleaves : leaves (pairRow (x :: xs)) =
      leaves [x.1, x.2] ++ xs.flatMap fun y => leaves [y.1, y.2] := by
    rw [pairRow, List.flatMap_cons, leaves, List.map_append, List.map_flatMap]
    rfl
  rw [hleaves]
  exact ((hone hx _).seq hmore).mono (by omega)

lemma exists_pairRow {ws : List (List Char)}
    (h : Fit ts (ws.flatMap fun w => [.symbol "\\", .exactly (String.ofList w)])) :
    ∃ xs, ts = pairRow xs ∧ ∀ x ∈ xs, IsStep x := by
  induction ws generalizing ts with
  | nil =>
    cases h
    exact ⟨[], rfl, by simp⟩
  | cons w ws ih =>
    rw [List.flatMap_cons] at h
    cases h with
    | cons hb h =>
      cases h with
      | cons hw h =>
        obtain ⟨xs, rfl, hxs⟩ := ih h
        have hword := Pattern.kind_of_isWord rfl hw
        exact ⟨(_, _) :: xs, rfl, List.forall_mem_cons.mpr ⟨⟨hb, hword⟩, hxs⟩⟩

lemma fails_segments_word (hw : t.kind = .word) (ts : List Token) :
    Fails grammar 4 segments (t :: ts) := by
  have hmark : Fails grammar 1 (Rule.sym "\\") (t :: ts) := if_neg (by
    simp [Pattern.accepts, show t.lexeme.kind = .word from hw])
  exact hmark.seq_left.seq_left.mono (by omega)

/-- A name that is spelled out is read as such, up to a token that is no backslash. -/
lemma reads_nameOf_row {lead : Bool} {row : List Token} (h : Fit row (namePatterns lead n))
    (hp : ∀ w : Token, w.kind = .word → w.text = n.first → p.accepts w.lexeme = true)
    (ht : (Pattern.symbol "\\").accepts t.lexeme = false) (ts : List Token) :
    ∃ m k, (k = .name ∨ k = .qualifiedName) ∧
      Reads grammar m (nameOf p) (row ++ t :: ts) [.node k (leaves row)] (t :: ts) := by
  cases lead with
  | true =>
    have hpairs : Fit row ((n.first :: n.more).flatMap fun w =>
        [.symbol "\\", .exactly (String.ofList w)]) := h
    obtain ⟨xs, rfl, hxs⟩ := exists_pairRow hpairs
    cases xs with
    | nil => cases h
    | cons x xs =>
      obtain ⟨hx, hxs⟩ := List.forall_mem_cons.mp hxs
      exact ⟨_, _, .inr rfl, ((reads_segments_row hx hxs ht ts).node .qualifiedName).alt_left⟩
  | false =>
    rw [namePatterns] at h
    cases h with
    | @cons w _ _ _ hw h =>
      obtain ⟨xs, rfl, hxs⟩ := exists_pairRow h
      have hkind := Pattern.kind_of_isWord rfl hw
      have htext : w.text = n.first := by
        simpa using Pattern.text_eq (p := .exactly (String.ofList n.first)) rfl hw
      have hfirst (ts : List Token) : Reads grammar 1 (.token p) (w :: ts) [.leaf w] ts :=
        reads_token (hp w hkind htext)
      have hmark (ts : List Token) := (fails_segments_word hkind ts).node .qualifiedName
      cases xs with
      | nil =>
        have hmore : Fails grammar 4 segments (t :: ts) := by
          have hmark : Fails grammar 1 (Rule.sym "\\") (t :: ts) := if_neg (by rw [ht]; simp)
          exact hmark.seq_left.seq_left.mono (by omega)
        exact ⟨_, _, .inl rfl, Reads.alt_right (hmark _) (Reads.alt_right
          ((Fails.seq_right (hfirst _) hmore).node .qualifiedName) ((hfirst _).node .name))⟩
      | cons x xs =>
        obtain ⟨hx, hxs⟩ := List.forall_mem_cons.mp hxs
        exact ⟨_, _, .inr rfl, Reads.alt_right (hmark _)
          (((hfirst _).seq (reads_segments_row hx hxs ht ts)).node .qualifiedName).alt_left⟩

end EloquentEntity.Syntax

import EloquentEntity.Proofs.Syntax.Run

/-!
Places between the tokens of a source, and insertions there.

Where a gap may be parted, white space or a block comment becomes part of it. All other gaps and
all tokens stay as they are.
-/

namespace EloquentEntity.Syntax

/-! ### Places -/

def outside (source : String) : List Char := source.toList.take (outsideLength source.toList)

def IsWhiteSpace (w : List Char) : Prop := ∀ c ∈ w, isSpace c = true ∧ c.toNat < 128

inductive Filler : List Char → Prop
  | whiteSpace {w : List Char} : w ≠ [] → IsWhiteSpace w → Filler w
  | comment {s : List Char} : blockLength s = some s.length → Filler ('/' :: '*' :: s)

/-- A gap of the code, outside of strings, and a place in it: pieces of the gap stand in front of
the place, and no piece is parted by it. -/
structure Place (source : String) where
  before : List Token
  /-- The token behind the gap. -/
  next : Token
  after : List Token
  /-- The text before the code, if the gap is the first one. -/
  tag : List Char
  /-- The pieces in front of the place. -/
  row : List Char
  back : List Char
  tokens_eq : tokens source = before ++ next :: after
  after_ne : after ≠ []
  gap_eq : next.gap = tag ++ row ++ back
  tag_eq : tag = if before = [] then outside source else []
  /-- White space ends the opening tag. -/
  row_ne : before = [] → row ≠ []
  isRow : IsRow row
  balanced : countKind .templateOpen before = countKind .templateClose before

namespace Place

variable {source : String} {w : List Char}

def offset (p : Place source) : Nat := (writtenAll p.before).length + (p.tag ++ p.row).length

def insert (p : Place source) (w : List Char) : String :=
  String.ofList (source.toList.take p.offset ++ w ++ source.toList.drop p.offset)

/-- The token behind the gap, once a text has been inserted. -/
def spaced (p : Place source) (w : List Char) : Token :=
  { p.next with gap := p.tag ++ p.row ++ w ++ p.back }

/-- A slash right before would make a line comment with the slash that a comment starts with. -/
def Parts (p : Place source) (w : List Char) : Prop :=
  p.row = [] → w.head? = some '/' → ∀ t ∈ p.before.getLast?, t.text ≠ ['/']

end Place

lemma Filler.isRow {w : List Char} (h : Filler w) : IsRow w := by
  cases h with
  | whiteSpace _ h => exact isRow_of_spaces (List.all_eq_true.mpr fun c hc => (h c hc).1)
  | comment h => exact isRow_block h

lemma Filler.ne_nil {w : List Char} (h : Filler w) : w ≠ [] := by
  cases h with
  | whiteSpace hne => exact hne
  | comment => simp

lemma Filler.stops {w : List Char} (h : Filler w) (x : List Char) : Stops (w ++ x) := by
  cases h with
  | whiteSpace hne h =>
    obtain ⟨c, w, rfl⟩ := List.exists_cons_of_ne_nil hne
    exact .inl (h c (by simp)).1
  | comment h => exact .inr rfl

def Token.mapGap (f : List Char → List Char) (t : Token) : Token := { t with gap := f t.gap }

lemma tokensFrom_mapGap (f : List Char → List Char) (fuel : Nat) (modes : List Mode) (g : Gap) :
    tokensFrom fuel modes { g with chars := f g.chars } =
      (tokensFrom fuel modes g).modifyHead (Token.mapGap f) := by
  cases fuel with
  | zero => rfl
  | succ fuel =>
    rw [tokensFrom, tokensFrom]
    dsimp only
    split <;> rfl

/-- Fuel for every character is enough. -/
lemma tokensFrom_fuel {i j : Nat} {modes : List Mode} {g : Gap} (hi : g.rest.length < i)
    (hj : g.rest.length < j) : tokensFrom i modes g = tokensFrom j modes g := by
  induction i generalizing j modes g with
  | zero => cases hi
  | succ i ih =>
    obtain ⟨j, rfl⟩ : ∃ j', j = j' + 1 := ⟨j - 1, by omega⟩
    rw [tokensFrom, tokensFrom]
    dsimp only
    split
    · rfl
    · next n hn =>
      have hrest (modes : List Mode) : (lead modes (g.rest.drop (n + 1))).rest.length ≤
          g.rest.length - (n + 1) := by
        have := congrArg List.length (lead_split modes (g.rest.drop (n + 1)))
        rw [List.length_append, List.length_drop] at this
        omega
      have hne : g.rest ≠ [] := by
        intro hnil
        rw [hnil, scan_nil] at hn
        cases hn
      have := List.length_pos_iff.mpr hne
      have := hrest (scan modes g.rest).modes
      exact congrArg _ (ih (g := lead _ _) (by omega) (by omega))

lemma tokens_eq (source : String) : tokens source =
    (tokensFrom (source.toList.length + 1) []
      (lead [] (source.toList.drop (outsideLength source.toList)))).modifyHead
        (Token.mapGap (outside source ++ ·)) := tokensFrom_mapGap _ _ _ _

/-! ### What stands before a place -/

section Reached

variable {source : String} {root : Tree} {w r : List Char} {ts : List Token} {t : Token}
  {modes : List Mode}

def code (source : String) : List Char := source.toList.drop (outsideLength source.toList)

lemma outside_append_code (source : String) : outside source ++ code source = source.toList :=
  List.take_append_drop _ _

namespace Place

/-- The lexer comes to the place with these tokens and in these modes; `r` is the text behind the
gap. -/
structure Reached (p : Place source) (ts : List Token) (modes : List Mode) (r : List Char) :
    Prop where
  before_eq : p.before = ts.modifyHead (Token.mapGap (outside source ++ ·))
  run : Run [] (code source) ts modes (p.row ++ (p.back ++ r))
  inBlocks : InBlocks modes
  lead_eq : lead modes (p.row ++ (p.back ++ r)) = ⟨p.row ++ p.back, p.next.lexeme.afterTag, r⟩
  rest_ne : r ≠ []
  tokensFrom_eq : ∀ fuel, r.length < fuel →
    tokensFrom fuel modes ⟨p.row ++ p.back, p.next.lexeme.afterTag, r⟩ =
      ⟨p.row ++ p.back, p.next.lexeme⟩ :: p.after

end Place

lemma countKind_modifyHead (f : List Char → List Char) (k : TokenKind) (ts : List Token) :
    countKind k (ts.modifyHead (Token.mapGap f)) = countKind k ts := by
  cases ts with
  | nil => rfl
  | cons t ts => rw [List.modifyHead_cons, countKind_cons, countKind_cons]; rfl

lemma exists_of_modifyHead {α : Type} {f : α → α} {l before after : List α} {a : α}
    (h : l.modifyHead f = before ++ a :: after) : ∃ before₀ a₀, l = before₀ ++ a₀ :: after ∧
      before = before₀.modifyHead f ∧ a = if before = [] then f a₀ else a₀ := by
  cases l with
  | nil =>
    obtain ⟨-, hnil⟩ := List.append_eq_nil_iff.mp h.symm
    cases hnil
  | cons b l =>
    cases before with
    | nil =>
      obtain ⟨rfl, rfl⟩ := List.cons.inj h
      exact ⟨[], b, rfl, rfl, rfl⟩
    | cons c before =>
      obtain ⟨rfl, rfl⟩ := List.cons.inj h
      exact ⟨b :: before, a, rfl, rfl, rfl⟩

lemma Place.exists_reached (p : Place source) : ∃ ts modes r, p.Reached ts modes r := by
  have htokens := p.tokens_eq
  rw [Syntax.tokens_eq] at htokens
  obtain ⟨ts, next, hraw, hbefore, hnext⟩ := exists_of_modifyHead htokens
  obtain ⟨modes, s, hrun, -, fuel, hfuel, hrest⟩ := run_of_tokensFrom hraw p.after_ne
  -- As many strings are closed as were opened before the place.
  have hmodes : InBlocks modes := by
    obtain ⟨hnested, hdepth⟩ := hrun.nested .nil
    refine hnested.inBlocks ?_
    have hbalanced := p.balanced
    rw [hbefore, countKind_modifyHead, countKind_modifyHead] at hbalanced
    rw [depth_nil] at hdepth
    omega
  -- The gap of the token behind the place, without what the opening tag adds to it.
  have hgap : next.gap = p.row ++ p.back := by
    have hgap := p.gap_eq
    have htag := p.tag_eq
    split at hnext
    · next hempty =>
      rw [if_pos hempty] at htag
      rw [hnext, htag, List.append_assoc] at hgap
      exact List.append_cancel_left hgap
    · next hempty =>
      rw [if_neg hempty] at htag
      rwa [hnext, htag] at hgap
  have hlexeme : next.lexeme = p.next.lexeme := by
    rw [hnext]
    split <;> rfl
  obtain ⟨fuel', n, rfl, hn, hhead, htail⟩ := exists_of_tokensFrom hrest p.after_ne
  have hchars : (lead modes s).chars = p.row ++ p.back := by rw [← hgap, hhead]
  have htag : (lead modes s).afterTag = p.next.lexeme.afterTag := by rw [← hlexeme, hhead]
  have hsplit := lead_split modes s
  rw [hchars, List.append_assoc] at hsplit
  have hne : (lead modes s).rest ≠ [] := by
    intro hnil
    rw [hnil, scan_nil] at hn
    cases hn
  refine ⟨ts, modes, (lead modes s).rest, hbefore, ?_, hmodes, ?_, hne, fun fuel hlt => ?_⟩
  · rw [hsplit]
    exact hrun
  · rw [hsplit, ← hchars, ← htag]
  · have hlength := congrArg List.length hrun.written_eq
    have hwhole := congrArg List.length (outside_append_code source)
    have hle := hrun.length_le
    have hrest' := congrArg List.length (lead_split modes s)
    rw [List.length_append] at hlength hwhole hrest'
    rw [← hchars, ← htag, ← hlexeme]
    refine (tokensFrom_fuel (g := lead modes s) hlt ?_).trans (hrest.trans ?_)
    · change (code source).length = _ at hlength
      omega
    · rw [hchars, ← hgap]

lemma writtenAll_mapGap (g : List Char) (h : ts ≠ []) :
    writtenAll (ts.modifyHead (Token.mapGap (g ++ ·))) = g ++ writtenAll ts := by
  obtain ⟨t, ts, rfl⟩ := List.exists_cons_of_ne_nil h
  rw [List.modifyHead_cons, writtenAll_cons, writtenAll_cons]
  simp [Token.mapGap, Token.text]

namespace Place

variable {p : Place source}

namespace Reached

lemma before_eq_nil_iff (h : p.Reached ts modes r) : p.before = [] ↔ ts = [] := by
  rw [h.before_eq]
  cases ts <;> simp

lemma lexemes_eq (h : p.Reached ts modes r) :
    p.before.map Token.lexeme = ts.map Token.lexeme := by
  rw [h.before_eq]
  cases ts <;> rfl

lemma isKnown (h : p.Reached ts modes r) (hroot : parse source = some root) :
    ∀ t ∈ ts, t.IsKnown := by
  intro t ht
  have hlexeme : t.lexeme ∈ p.before.map Token.lexeme := by
    rw [h.lexemes_eq]
    exact List.mem_map_of_mem ht
  obtain ⟨u, hu, hut⟩ := List.mem_map.mp hlexeme
  have hknown : u.IsKnown := isKnown_of_parse hroot (by simp [p.tokens_eq, hu])
  simpa only [Token.IsKnown, Token.kind, Token.text, hut] using hknown

/-- No slash stands right before a comment that is inserted. -/
lemma text_ne (h : p.Reached ts modes r) (hparts : p.Parts w) (hrow : p.row = [])
    (hhead : w.head? = some '/') : ∀ t ∈ ts.getLast?, t.text ≠ ['/'] := by
  intro t ht
  have hlexeme : p.before.getLast?.map Token.lexeme = some t.lexeme := by
    rw [← List.getLast?_map, h.lexemes_eq, List.getLast?_map, Option.mem_def.mp ht]
    rfl
  obtain ⟨u, hu, hut⟩ := Option.map_eq_some_iff.mp hlexeme
  have hne := hparts hrow hhead u hu
  rwa [Token.text, hut] at hne

lemma written_eq (h : p.Reached ts modes r) :
    writtenAll p.before ++ (p.tag ++ p.row) = outside source ++ (writtenAll ts ++ p.row) := by
  have htag := p.tag_eq
  by_cases hempty : ts = []
  · rw [if_pos (h.before_eq_nil_iff.mpr hempty)] at htag
    rw [h.before_eq, htag, hempty]
    rfl
  · rw [if_neg (mt h.before_eq_nil_iff.mp hempty)] at htag
    rw [h.before_eq, htag, writtenAll_mapGap _ hempty]
    simp

end Reached

end Place

end Reached

end EloquentEntity.Syntax

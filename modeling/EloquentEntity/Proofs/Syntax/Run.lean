import EloquentEntity.Proofs.Syntax.GapEnd
import EloquentEntity.Proofs.Syntax.KnownTokens
import EloquentEntity.Proofs.Syntax.Modes

/-!
White space and comments between tokens change no token.

The lexer goes from token to token. Each step is settled by what stands before the place of the
insertion: no gap and no token before it reaches beyond it, save that a slash right before it would
make a comment with a slash behind. So the tokens before and behind the place stay as they are, and
what is inserted becomes part of the gap.
-/

namespace EloquentEntity.Syntax

variable {p r s s' x y w : List Char} {c : Char} {q : Quote} {modes modes' : List Mode} {t : Token}
  {ts ts' : List Token} {n : Nat} {g : Gap}

/-! ### Runs of the lexer -/

def lead (modes : List Mode) (s : List Char) : Gap :=
  if isTight modes then ⟨[], false, s⟩ else gap s

/-- The lexer finds the tokens and then stands in these modes before that text. -/
inductive Run : List Mode → List Char → List Token → List Mode → List Char → Prop
  | nil (modes : List Mode) (s : List Char) : Run modes s [] modes s
  | cons {modes modes₁ modes₂ : List Mode} {s s₁ s₂ : List Char} {t : Token} {ts : List Token}
      (lead_eq : lead modes s = ⟨t.gap, t.lexeme.afterTag, t.text ++ s₁⟩)
      (scan_eq : scan modes (t.text ++ s₁) = ⟨t.kind, t.text.length, modes₁⟩)
      (text_ne : t.text ≠ []) (rest : Run modes₁ s₁ ts modes₂ s₂) : Run modes s (t :: ts) modes₂ s₂

lemma lead_split (modes : List Mode) (s : List Char) :
    (lead modes s).chars ++ (lead modes s).rest = s := by
  rw [lead]
  split
  · rfl
  · exact List.take_append_drop _ _

lemma tokensFrom_lead {modes₁ : List Mode} {k : TokenKind} {s₁ : List Char}
    (hscan : scan modes (p ++ s₁) = ⟨k, p.length, modes₁⟩) (hp : p ≠ []) (fuel : Nat)
    (chars : List Char) (afterTag : Bool) :
    tokensFrom (fuel + 1) modes ⟨chars, afterTag, p ++ s₁⟩ =
      ⟨chars, k, p, afterTag⟩ :: tokensFrom fuel modes₁ (lead modes₁ s₁) := by
  obtain ⟨n, hn⟩ := Nat.exists_eq_succ_of_ne_zero (mt List.length_eq_zero_iff.mp hp)
  have htake : (p ++ s₁).take (n + 1) = p := List.take_left' hn
  have hdrop : (p ++ s₁).drop (n + 1) = s₁ := List.drop_left' hn
  rw [hn] at hscan
  rw [tokensFrom, hscan]
  dsimp only
  rw [htake, hdrop]
  rfl

lemma writtenAll_cons (t : Token) (ts : List Token) :
    writtenAll (t :: ts) = t.gap ++ t.text ++ writtenAll ts := rfl

namespace Run

lemma written_eq (h : Run modes s ts modes' s') : s = writtenAll ts ++ s' := by
  induction h with
  | nil => rfl
  | @cons modes _ _ s _ _ _ _ hlead _ _ _ ih =>
    have hs := lead_split modes s
    rw [hlead, ih] at hs
    rw [← hs, writtenAll_cons, List.append_assoc, List.append_assoc]

lemma tokensFrom_eq (h : Run modes s ts modes' s') (fuel : Nat) :
    tokensFrom (fuel + ts.length) modes (lead modes s) =
      ts ++ tokensFrom fuel modes' (lead modes' s') := by
  induction h with
  | nil => rfl
  | cons hlead hscan hne _ ih =>
    rw [List.length_cons, ← Nat.add_assoc, hlead, tokensFrom_lead hscan hne, ih]
    rfl

end Run

lemma scan_nil (modes : List Mode) : (scan modes []).length = 0 := by
  induction modes with
  | nil => rfl
  | cons m modes ih =>
    cases m with
    | afterVariable =>
      rw [scan_afterVariable]
      exact ih
    | member => rfl
    | template q => cases q <;> rfl
    | block | index => rfl

lemma exists_of_tokensFrom {fuel : Nat} (h : tokensFrom fuel modes g = t :: ts) (hts : ts ≠ []) :
    ∃ fuel₁ n, fuel = fuel₁ + 1 ∧ (scan modes g.rest).length = n + 1 ∧
      t = ⟨g.chars, (scan modes g.rest).kind, g.rest.take (n + 1), g.afterTag⟩ ∧
      ts = tokensFrom fuel₁ (scan modes g.rest).modes
        (lead (scan modes g.rest).modes (g.rest.drop (n + 1))) := by
  cases fuel with
  | zero =>
    cases h
    exact absurd rfl hts
  | succ fuel =>
    rw [tokensFrom] at h
    dsimp only at h
    split at h
    · cases h
      exact absurd rfl hts
    · next n hn =>
      obtain ⟨rfl, rfl⟩ := List.cons.inj h
      exact ⟨fuel, n, rfl, hn, by rw [hn], rfl⟩

lemma run_of_tokensFrom {fuel : Nat} (h : tokensFrom fuel modes (lead modes s) = ts ++ t :: ts')
    (hts' : ts' ≠ []) : ∃ modes' s', Run modes s ts modes' s' ∧ s' ≠ [] ∧
      ∃ fuel', fuel = fuel' + ts.length ∧ tokensFrom fuel' modes' (lead modes' s') = t :: ts' := by
  induction ts generalizing fuel modes s with
  | nil =>
    refine ⟨modes, s, .nil modes s, ?_, fuel, rfl, h⟩
    rintro rfl
    obtain ⟨-, n, -, hn, -⟩ := exists_of_tokensFrom h hts'
    have hnil : (lead modes []).rest = [] := (List.append_eq_nil_iff.mp (lead_split modes [])).2
    rw [hnil, scan_nil] at hn
    cases hn
  | cons u ts ih =>
    obtain ⟨fuel₁, n, rfl, hn, rfl, hrest⟩ := exists_of_tokensFrom h (by simp)
    obtain ⟨modes', s', hrun, hs', fuel', rfl, htokens⟩ := ih hrest.symm
    have hlength : ((lead modes s).rest.take (n + 1)).length = n + 1 := by
      have hne : (lead modes s).rest.drop (n + 1) ≠ [] := by
        rw [hrun.written_eq]
        exact List.append_ne_nil_of_right_ne_nil _ hs'
      rw [Ne, List.drop_eq_nil_iff] at hne
      rw [List.length_take]
      omega
    have hsplit := List.take_append_drop (n + 1) (lead modes s).rest
    refine ⟨modes', s', Run.cons ?_ ?_ ?_ hrun, hs', fuel',
      rfl, htokens⟩
    · change _ = Gap.mk _ _ ((lead modes s).rest.take (n + 1) ++ _)
      rw [hsplit]
    · change scan modes ((lead modes s).rest.take (n + 1) ++ _) =
        ⟨_, ((lead modes s).rest.take (n + 1)).length, _⟩
      rw [hsplit, hlength, ← hn]
      rfl
    · exact List.ne_nil_of_length_pos (Nat.lt_of_lt_of_eq n.succ_pos hlength.symm)

/-! ### What a run does not look at -/

def countKind (k : TokenKind) (ts : List Token) : Nat := ts.countP (·.kind == k)

lemma countKind_cons (k : TokenKind) (t : Token) (ts : List Token) :
    countKind k (t :: ts) = countKind k ts + (if t.kind = k then 1 else 0) := by
  rw [countKind, List.countP_cons]
  simp [countKind]

/-- A run opens as many strings more than it closes as it leaves open. -/
lemma Run.nested (h : Run modes s ts modes' s') (hm : Nested modes) : Nested modes' ∧
    depth modes' + countKind .templateClose ts = depth modes + countKind .templateOpen ts := by
  induction h with
  | nil => exact ⟨hm, rfl⟩
  | @cons _ _ _ _ s₁ _ t _ _ hscan _ _ ih =>
    have hstep := hm.scan (t.text ++ s₁)
    rw [hscan] at hstep
    obtain ⟨hnested, hdepth⟩ := ih hstep.nested
    have hfirst := hstep.depth_eq
    dsimp only at hfirst
    refine ⟨hnested, ?_⟩
    rw [countKind_cons, countKind_cons]
    omega

/-! ### Strings in a run -/

lemma kind_scanInside_iff (modes : List Mode) (q : Quote) (s : List Char) :
    (scanInside modes q s).kind = .templateClose ↔ (q.closing s).isSome := by
  rw [scanInside.eq_def]
  split
  · next h => simp [h]
  · next h =>
    rw [h]
    split
    · simp
    · simp
    · simp
    · split <;> simp
    · simp

lemma plainLength_of_stops (hq : q.Proper) (h : q.stops s = true) : q.plainLength s = 0 := by
  cases s with
  | nil => rfl
  | cons c s => rw [plainLength_cons (breaks_of_stops hq h).1, h, if_pos rfl]

lemma not_inBlocks_cons {m : Mode} (hm : m ≠ .block) : ¬ InBlocks (m :: modes) :=
  fun h => hm (h m (by simp))

lemma not_inBlocks_template (m : Mode) : ¬ InBlocks (m :: .template q :: modes) :=
  fun h => absurd (h (.template q) (by simp)) (by simp)

/-- The plain characters with which the tokens of a string start. -/
def plainOf : List Token → Nat
  | t :: _ => if t.kind = .templateText then t.text.length else 0
  | [] => 0

def closes : List Token → Bool
  | t :: ts =>
    if t.kind = .templateText then ts.head?.any (·.kind == .templateClose)
    else t.kind == .templateClose
  | [] => false

/-- What the tokens of a string tell of its plain characters and of its end. -/
structure TellsPlain (q : Quote) (s : List Char) (ts : List Token) : Prop where
  plainLength_eq : q.plainLength s = plainOf ts
  closing_eq : (q.closing (s.drop (plainOf ts))).isSome = closes ts
  two_le : closes ts = false → 2 ≤ ts.length
  plainOf_lt : plainOf ts < (writtenAll ts).length

lemma TellsPlain.of_stops (hq : q.Proper) (hstops : q.stops s = true)
    (htext : t.kind ≠ .templateText) (hclose : t.kind = .templateClose ↔ (q.closing s).isSome)
    (hmore : t.kind ≠ .templateClose → ts ≠ []) (hne : t.text ≠ []) : TellsPlain q s (t :: ts) := by
  have hplain : plainOf (t :: ts) = 0 := by rw [plainOf, if_neg htext]
  have hcloses : closes (t :: ts) = (t.kind == .templateClose) := by rw [closes, if_neg htext]
  refine ⟨?_, ?_, fun h => ?_, ?_⟩
  · rw [hplain, plainLength_of_stops hq hstops]
  · rw [hplain, List.drop_zero, hcloses, Bool.eq_iff_iff, ← hclose, beq_iff_eq]
  · rw [hcloses, beq_eq_false_iff_ne] at h
    have := List.length_pos_iff.mpr (hmore h)
    rw [List.length_cons]
    omega
  · have := List.length_pos_iff.mpr hne
    rw [hplain, writtenAll_cons, List.length_append, List.length_append]
    omega

lemma TellsPlain.of_text {u : Token} (htext : t.kind = .templateText)
    (hplain : q.plainLength (t.text ++ s) = t.text.length)
    (hclose : u.kind = .templateClose ↔ (q.closing s).isSome) (hne : u.text ≠ []) :
    TellsPlain q (t.text ++ s) (t :: u :: ts) := by
  have hplainOf : plainOf (t :: u :: ts) = t.text.length := by rw [plainOf, if_pos htext]
  have hcloses : closes (t :: u :: ts) = (u.kind == .templateClose) := by
    rw [closes, if_pos htext]
    rfl
  refine ⟨hplain.trans hplainOf.symm, ?_, fun _ => by simp, ?_⟩
  · rw [hplainOf, List.drop_left, hcloses, Bool.eq_iff_iff, ← hclose, beq_iff_eq]
  · have := List.length_pos_iff.mpr hne
    rw [hplainOf, writtenAll_cons, writtenAll_cons]
    simp only [List.length_append]
    omega

namespace Run

lemma length_le (h : Run modes s ts modes' s') : ts.length ≤ (writtenAll ts).length := by
  induction h with
  | nil => simp
  | @cons _ _ _ _ _ _ t ts _ _ hne _ ih =>
    have := List.length_pos_iff.mpr hne
    rw [writtenAll_cons, List.length_cons, List.length_append, List.length_append]
    omega

lemma template_cases (h : Run (.template q :: modes) s ts modes' s') (hm : InBlocks modes') :
    ∃ t ts' s₁ modes₁, ts = t :: ts' ∧ s = t.text ++ s₁ ∧
      scanInside (.template q :: modes) q s = ⟨t.kind, t.text.length, modes₁⟩ ∧ t.text ≠ [] ∧
      Run modes₁ s₁ ts' modes' s' := by
  cases h with
  | nil => exact absurd hm (not_inBlocks_cons (by simp))
  | @cons _ modes₁ _ _ s₁ _ t ts' hlead hscan hne hrest =>
    have hs : s = t.text ++ s₁ := congrArg Gap.rest hlead
    rw [← hs] at hscan
    exact ⟨t, ts', s₁, modes₁, rfl, hs, hscan, hne, hrest⟩

lemma tellsPlain (h : Run (.template q :: modes) s ts modes' s') (hm : InBlocks modes')
    (hq : q.Proper) : TellsPlain q s ts := by
  obtain ⟨t, ts', s₁, modes₁, rfl, hs, hscan, hne, hrest⟩ := h.template_cases hm
  have hsne : s ≠ [] := hs ▸ List.append_ne_nil_of_left_ne_nil hne s₁
  have hclose := kind_scanInside_iff (.template q :: modes) q s
  rw [hscan] at hclose
  obtain ⟨n, hclosing, hk⟩ | ⟨hclosing, hopens⟩ | ⟨-, hk⟩ :=
    scanInside_cases (q := q) (.template q :: modes) hsne
  · rw [hscan] at hk
    have hkind : t.kind = .templateClose := congrArg Scan.kind hk
    exact .of_stops hq (by rw [Quote.stops, hclosing]; rfl) (by rw [hkind]; decide) hclose
      (absurd hkind) hne
  · obtain ⟨m, hmodes⟩ := exists_modes_of_opens (.template q :: modes) hclosing hopens
    have hkind := kind_of_opens (.template q :: modes) hclosing hopens
    rw [hscan] at hmodes hkind
    obtain rfl : modes₁ = m :: .template q :: modes := hmodes
    refine .of_stops hq (by rw [Quote.stops, hopens, Bool.or_true]) hkind hclose (fun _ => ?_) hne
    rintro rfl
    cases hrest
    exact not_inBlocks_template m hm
  · rw [hscan] at hk
    obtain rfl : modes₁ = .template q :: modes := congrArg Scan.modes hk
    obtain ⟨u, us, s₂, modes₂, rfl, -, hscan₂, hne₂, -⟩ := hrest.template_cases hm
    have hclose₂ := kind_scanInside_iff (.template q :: modes) q s₁
    rw [hscan₂] at hclose₂
    have hlength : t.text.length = q.plainLength s := congrArg Scan.length hk
    subst hs
    exact .of_text (congrArg Scan.kind hk) hlength.symm hclose₂ hne₂

end Run

/-! ### Marks of heredocs -/

lemma scanCode_mark (hstart : heredocStart s = none) (hs : "<<<".toList <+: s) :
    scanCode modes s = ⟨.symbol, 3, modes⟩ := by
  obtain ⟨r, rfl⟩ := hs
  have hstring : scanString modes 0 ("<<<".toList ++ r) = none := by
    rw [scanString_heredoc (r := "<<".toList ++ r) rfl]
    exact scanHeredoc_none hstart
  change scanCode modes ('<' :: ("<<".toList ++ r)) = _
  change scanString modes 0 ('<' :: ("<<".toList ++ r)) = none at hstring
  rw [scanCode, if_neg (by decide), if_neg (by simp), if_neg (by simp), if_neg (by decide), hstring]
  rfl

lemma scanCode_letter (hc : c = 'b' ∨ c = 'B') (hstart : heredocStart s = none)
    (hs : "<<<".toList <+: s) : scanCode modes (c :: s) = ⟨.word, 1, modes⟩ := by
  obtain ⟨r, rfl⟩ := hs
  have hword : isWordStart c = true := by rcases hc with rfl | rfl <;> decide
  have hb : (c == 'b' || c == 'B') = true := by rcases hc with rfl | rfl <;> decide
  have hstring : scanString modes 1 (c :: ("<<<".toList ++ r)) = none := by
    rw [scanString_heredoc (r := "<<".toList ++ r) rfl]
    exact scanHeredoc_none hstart
  rw [scanCode, if_pos hword, scanWord, if_pos hb, hstring]
  have htake : (c :: ("<<<".toList ++ r)).takeWhile isWordPart = [c] := by
    rw [List.takeWhile_cons, isWordPart_of_isWordStart hword, if_pos rfl]
    rfl
  rw [htake]
  rfl

/-- Outside of strings the next token is one of code, in modes that allow a gap. -/
lemma scan_inCode (h : inCode modes = true) (hs : ∀ k ∈ s.head?, k ∉ ['[', '-', '?']) :
    ∃ modes', scan modes s = scanCode modes' s ∧ inCode modes' = true ∧ isTight modes' = false := by
  induction modes with
  | nil => exact ⟨[], by rw [scan_inBlocks (by simp [InBlocks])], rfl, rfl⟩
  | cons m modes ih =>
    cases m with
    | block => exact ⟨.block :: modes, by rw [scan] <;> simp, rfl, rfl⟩
    | index => exact ⟨.index :: modes, by rw [scan] <;> simp, rfl, rfl⟩
    | template q => cases h
    | member => cases h
    | afterVariable =>
      have hstep : variableStep modes s = none := by
        rw [variableStep]
        · rintro r rfl
          exact hs '[' rfl (by decide)
        · rintro c r rfl
          exact hs '-' rfl (by decide)
        · rintro c r rfl
          exact hs '?' rfl (by decide)
      rw [scan_afterVariable, hstep]
      exact ih h

lemma scan_of_not_tight (h : isTight modes = false) (s : List Char) :
    scan modes s = scanCode modes s := by
  rcases modes with _ | ⟨m, modes⟩
  · exact scan_inBlocks (by simp [InBlocks]) s
  · cases m with
    | block | index => rw [scan] <;> simp
    | _ => cases h

/-! ### Where no gap goes on -/

lemma kind_scanCode_comment (modes : List Mode) (s : List Char) :
    (scanCode modes ('/' :: '*' :: s)).kind = .unknown := by
  rw [scanCode, if_neg (by decide), if_neg (by simp), if_neg (by simp), if_neg (by decide),
    scanString_none (by simp [opening])]
  rfl

lemma length_scanCode_hash (modes : List Mode) (s : List Char) :
    (scanCode modes ('#' :: s)).kind = .unknown ∨ (scanCode modes ('#' :: s)).length = 2 := by
  rw [scanCode, if_neg (by decide), if_neg (by simp), if_neg (by simp), if_neg (by decide),
    scanString_none (by simp [opening]), Option.getD_none]
  cases hfind : symbols.find? (·.isPrefixOf ('#' :: s)) with
  | none =>
    rw [scanSymbol_none hfind]
    exact .inl rfl
  | some op =>
    rw [scanSymbol_some hfind]
    have hlength : symbols.all (fun op => !(['#'].isPrefixOf op) || op.length == 2) = true := by
      decide
    have hop := List.all_eq_true.mp hlength op (List.mem_of_find?_eq_some hfind)
    have hprefix : op.isPrefixOf ('#' :: s) = true :=
      List.find?_some (p := fun op : List Char => op.isPrefixOf ('#' :: s)) hfind
    cases op with
    | nil => exact absurd (List.mem_of_find?_eq_some hfind) (by decide)
    | cons c op =>
      obtain ⟨rfl, -⟩ := List.cons_prefix_cons.mp (List.isPrefixOf_iff_prefix.mp hprefix)
      exact .inr (by simpa using hop)

lemma lead_append {g : List Char} {b : Bool} (hy : Stops y) (hx : x ≠ [])
    (h : lead modes (g ++ (p ++ x)) = ⟨g, b, p ++ x⟩) (hp : p ≠ [])
    (hknown : (scan modes (p ++ x)).kind ≠ .unknown)
    (hle : (scan modes (p ++ x)).length ≤ p.length) (hslash : p = ['/'] → y.head? ≠ some '/') :
    lead modes (g ++ (p ++ y)) = ⟨g, b, p ++ y⟩ := by
  rw [lead] at h ⊢
  split at h
  · next htight =>
    obtain rfl : [] = g := congrArg Gap.chars h
    obtain rfl : false = b := congrArg Gap.afterTag h
    rw [if_pos htight]
    rfl
  · next htight =>
    rw [if_neg htight]
    rw [scan_of_not_tight (by simpa using htight)] at hknown hle
    have hdrop : (g ++ (p ++ x)).drop (gapLength 0 (g ++ (p ++ x))).1 = p ++ x :=
      congrArg Gap.rest h
    have hlength : (gapLength 0 (g ++ (p ++ x))).1 = g.length := by
      have hpos := List.length_pos_iff.mpr hp
      have := congrArg List.length hdrop
      rw [List.length_drop, List.length_append, List.length_append] at this
      omega
    -- No piece of a gap starts where the gap ends, with either text behind.
    have hnone : pieceLength (p ++ x) = 0 := by
      rw [← hdrop]
      exact pieceLength_drop_gapLength 0 _
    have hnone' : pieceLength (p ++ y) = 0 := by
      refine pieceLength_eq_zero hy hp ?_ hnone ?_ hslash
      · rintro rfl
        rcases length_scanCode_hash modes x with hunknown | htwo
        · exact hknown hunknown
        · rw [List.singleton_append, htwo] at hle
          simp at hle
      · rintro ⟨r, hr⟩
        rw [← hr] at hknown
        exact hknown (kind_scanCode_comment modes r)
    -- So the gap is as long as it was.
    have hgap : gapLength 0 (g ++ p ++ y) = gapLength 0 (g ++ p ++ x) := by
      refine gapLength_append hy hx (n := g.length) (by rwa [List.append_assoc]) ?_ ?_
      · have := List.length_pos_iff.mpr hp
        rw [List.length_append]
        omega
      · rwa [List.drop_left]
    rw [List.append_assoc, List.append_assoc] at hgap
    have hpair : gapLength 0 (g ++ (p ++ y)) = (g.length, b) :=
      hgap.trans (Prod.ext hlength (congrArg Gap.afterTag h))
    rw [gap, hpair]
    dsimp only
    rw [List.take_left, List.drop_left]

/-! ### One step -/

lemma kind_scanString_ne {mark : Nat} {k : Scan} (h : k ∈ scanString modes mark s) :
    k.kind ≠ .templateText := by
  have htemplate {q : Quote} {plain : TokenKind} (hplain : plain ≠ .templateText) (start : Nat) :
      (scanTemplate modes q plain start s).kind ≠ .templateText := by
    rw [scanTemplate.eq_def]
    dsimp only
    split
    · exact hplain
    · split <;> simp
  rw [Option.mem_def, scanString] at h
  split at h
  · split at h <;> cases h <;> simp
  · cases h
    exact htemplate (by decide) _
  · rw [scanHeredoc] at h
    split at h
    · cases h
    · split at h <;> cases h <;> simp
    · cases h
      exact htemplate (by decide) _
  · cases h

lemma kind_scanCode_ne (modes : List Mode) (s : List Char) :
    (scanCode modes s).kind ≠ .templateText := by
  have hstring (mark : Nat) (s : List Char) {k : Scan} (hk : k.kind ≠ .templateText) :
      ((scanString modes mark s).getD k).kind ≠ .templateText := by
    cases hx : scanString modes mark s with
    | none => exact hk
    | some x => exact kind_scanString_ne hx
  cases s with
  | nil => simp [scanCode]
  | cons c r =>
    rw [scanCode]
    split
    · rw [scanWord]
      split
      · exact hstring _ _ (by simp)
      · simp
    split
    · simp
    split
    · simp
    split
    · rw [scanCommand]
      split <;> simp
    · refine hstring _ _ ?_
      rw [scanSymbol.eq_def]
      split
      · simp
      · split <;> simp
        split <;> simp

/-- Behind the plain characters of a string stands what ends them. -/
lemma stops_of_templateText {modes₁ : List Mode}
    (h : scan modes (p ++ s) = ⟨.templateText, p.length, .template q :: modes₁⟩) (hp : p ≠ [])
    (hs : s ≠ []) : q.stops s = true := by
  induction modes with
  | nil =>
    rw [scan_inBlocks (by simp [InBlocks])] at h
    exact absurd (congrArg Scan.kind h) (kind_scanCode_ne _ _)
  | cons m modes ih =>
    cases m with
    | block | index =>
      rw [scan_of_not_tight rfl] at h
      exact absurd (congrArg Scan.kind h) (kind_scanCode_ne _ _)
    | member =>
      rw [scan] at h
      cases congrArg Scan.kind h
    | afterVariable =>
      rw [scan_afterVariable] at h
      cases hk : variableStep modes (p ++ s) with
      | none =>
        rw [hk] at h
        exact ih h
      | some k =>
        rw [hk, Option.getD_some] at h
        subst h
        rw [variableStep.eq_def] at hk
        split at hk
        · cases hk
        · split at hk <;> cases hk
        · split at hk <;> cases hk
        · cases hk
    | template q' =>
      rw [scan] at h
      have hne : p ++ s ≠ [] := List.append_ne_nil_of_left_ne_nil hp s
      -- Only the third case of a string gives plain text, and it takes all there is of it.
      obtain ⟨n, -, hk⟩ | ⟨hclosing, hopens⟩ | ⟨-, hk⟩ :=
        scanInside_cases (q := q') (.template q' :: modes) hne
      · rw [hk] at h
        cases congrArg Scan.kind h
      · exact absurd (congrArg Scan.kind h) (kind_of_opens _ hclosing hopens)
      · rw [hk] at h
        have hlength : q'.plainLength (p ++ s) = p.length := congrArg Scan.length h
        obtain ⟨hmode, -⟩ := List.cons.inj (congrArg Scan.modes h)
        cases hmode
        obtain ⟨-, hdrop | hdrop⟩ := plainLength_le q (p ++ s)
        · rw [hlength, List.drop_left] at hdrop
          exact absurd hdrop hs
        · rwa [hlength, List.drop_left] at hdrop

/-- What comes behind the opening of a string is told by the tokens there. -/
lemma opens_of_run {ms : List Mode} (hq : q.Proper) (hm : InBlocks modes')
    (hrun : Run (.template q :: ms) (writtenAll ts ++ (p ++ x)) ts modes' s)
    (hrun' : Run (.template q :: ms) (writtenAll ts ++ (p ++ y)) ts modes' s') :
    Opens q (writtenAll ts ++ p) x y := by
  obtain ⟨hplain, hclosing, htwo, hlt⟩ := hrun.tellsPlain hm hq
  obtain ⟨hplain', hclosing', -, -⟩ := hrun'.tellsPlain hm hq
  rw [← List.append_assoc] at hplain hclosing hplain' hclosing'
  refine ⟨?_, hplain'.trans hplain.symm, ?_, fun hnone => ?_⟩
  · rw [hplain, List.length_append]
    omega
  · rw [hplain, hclosing, hclosing']
  · rw [hplain] at hnone
    rw [hnone] at hclosing
    have := htwo hclosing.symm
    have := hrun.length_le
    rw [List.length_append]
    omega

/-- A mark that starts no heredoc is a token that is not known. -/
lemma not_isKnown_of_mark {modes₁ : List Mode} {s₁ : List Char}
    (hstart : heredocStart (t.text ++ s₁) = none) (hmark : "<<<".toList <+: t.text ++ s₁)
    (hscan : scanCode modes (t.text ++ s₁) = ⟨t.kind, t.text.length, modes₁⟩) : ¬ t.IsKnown := by
  rw [scanCode_mark hstart hmark] at hscan
  have hkind : .symbol = t.kind := congrArg Scan.kind hscan
  have hlength : 3 = t.text.length := congrArg Scan.length hscan
  have htext : "<<<".toList = t.text :=
    (List.prefix_of_prefix_length_le hmark (List.prefix_append t.text s₁) hlength.le).eq_of_length
      hlength
  exact fun hknown => hknown.2 ⟨hkind.symm, htext.symm⟩

lemma exists_of_mark (h : "<<<".toList <+: s) : ∃ r, s = '<' :: ("<<".toList ++ r) := by
  obtain ⟨r, rfl⟩ := h
  exact ⟨r, rfl⟩

lemma marked_of_scan {modes₁ : List Mode} (hmode : inCode modes = true)
    (hscan : scan modes (t.text ++ (r ++ x)) = ⟨t.kind, t.text.length, modes₁⟩)
    (hknown : t.IsKnown) : Marked (t.text ++ r ++ x) (t.text ++ r) := by
  intro hstart hmark
  rw [List.append_assoc] at hstart
  have hmark' : "<<<".toList <+: t.text ++ (r ++ x) := by
    rw [← List.append_assoc]
    exact hmark.trans (List.prefix_append _ x)
  obtain ⟨r', hr'⟩ := exists_of_mark hmark'
  obtain ⟨modes', hcode, -, -⟩ := scan_inCode (s := t.text ++ (r ++ x)) hmode (by rw [hr']; simp)
  rw [hcode] at hscan
  exact not_isKnown_of_mark hstart hmark' hscan hknown

/-- A mark of a heredoc stands behind no single letter. -/
lemma marked_of_letter {modes₁ : List Mode} (hmode : inCode modes = true)
    (hscan : scan modes (t.text ++ (writtenAll ts ++ (p ++ x))) = ⟨t.kind, t.text.length, modes₁⟩)
    (hne : t.text ≠ []) (hrest : Run modes₁ (writtenAll ts ++ (p ++ x)) ts modes' s')
    (hknown : ∀ u ∈ ts, u.IsKnown) (hp : p.head? ≠ some '<') :
    ∀ c ∈ (t.text ++ (writtenAll ts ++ p)).head?, c = 'b' ∨ c = 'B' →
      Marked ((t.text ++ (writtenAll ts ++ p) ++ x).drop 1)
        ((t.text ++ (writtenAll ts ++ p)).drop 1) := by
  obtain ⟨d, u, ht⟩ := List.exists_cons_of_ne_nil hne
  rw [ht] at hscan ⊢
  intro c hc hb hstart hmark
  obtain rfl : d = c := by simpa using hc
  have hmark' : "<<<".toList <+: u ++ (writtenAll ts ++ (p ++ x)) := by
    have := hmark.trans (List.prefix_append _ x)
    simpa using this
  have hstart' : heredocStart (u ++ (writtenAll ts ++ (p ++ x))) = none := by simpa using hstart
  obtain ⟨modes₂, hcode, -, htight⟩ := scan_inCode
    (s := d :: (u ++ (writtenAll ts ++ (p ++ x)))) hmode (by rcases hb with rfl | rfl <;> simp)
  rw [List.cons_append, hcode, scanCode_letter hb hstart' hmark'] at hscan
  -- The word is the letter alone, since a string with a mark would have started otherwise.
  obtain rfl : u = [] := by
    have hlength : 1 = (d :: u).length := congrArg Scan.length hscan
    exact List.length_eq_zero_iff.mp (by simpa using hlength.symm)
  obtain rfl : modes₂ = modes₁ := congrArg Scan.modes hscan
  rw [List.nil_append] at hstart' hmark'
  cases hrest with
  | nil =>
    rcases p with _ | ⟨e, p⟩
    · simp [writtenAll] at hmark
    · -- The heredoc's mark would start `p`.
      obtain ⟨r', hr'⟩ := exists_of_mark hmark
      obtain rfl : e = '<' := (List.cons.inj hr').1
      exact hp rfl
  | @cons _ _ _ _ s₁ _ v vs hlead hscan' _ _ =>
    -- The next token would be that mark, which starts no heredoc.
    obtain ⟨r', hr'⟩ := exists_of_mark hmark'
    have hzero : gapLength 0 (writtenAll (v :: vs) ++ (p ++ x)) = (0, false) := by
      rw [hr']
      exact gapLength_zero (by rw [pieceLength_other (by simp)]; rfl)
    rw [lead, htight, if_neg (by simp), gap, hzero] at hlead
    have htext : writtenAll (v :: vs) ++ (p ++ x) = v.text ++ s₁ := congrArg Gap.rest hlead
    rw [htext] at hstart' hmark'
    rw [scan_of_not_tight htight] at hscan'
    exact not_isKnown_of_mark hstart' hmark' hscan' (hknown v (by simp))

/-- A token that a run starts with ends where it ends, whatever comes behind the run. -/
lemma ends_of_run {modes₁ : List Mode} (hm : InBlocks modes') (hnested : Nested modes₁)
    (hx : x ≠ []) (hy : Stops y) (hscan : scan modes (t.text ++ (writtenAll ts ++ (p ++ x))) =
      ⟨t.kind, t.text.length, modes₁⟩) (hne : t.text ≠ []) (hknown : t.IsKnown)
    (hrun : Run modes₁ (writtenAll ts ++ (p ++ x)) ts modes' s)
    (hrun' : Run modes₁ (writtenAll ts ++ (p ++ y)) ts modes' s') :
    Ends ⟨t.kind, t.text.length, modes₁⟩ (t.text ++ (writtenAll ts ++ p)) x y := by
  refine ⟨hknown.1, List.length_pos_iff.mpr hne, by simp, fun hopen => ?_,
    fun q ms hkind hms => ?_, fun q ms hkind hms => ?_⟩
  · -- More tokens come, since a string is open.
    have htokens : ts ≠ [] := by
      rintro rfl
      cases hrun
      exact hopen hm
    have := hrun.length_le
    have := List.length_pos_iff.mpr htokens
    simp only [List.length_append]
    omega
  · obtain rfl : modes₁ = .template q :: ms := hms
    rw [List.drop_left]
    exact opens_of_run (hnested.proper (by simp)) hm hrun hrun'
  · obtain rfl : modes₁ = .template q :: ms := hms
    have hkind : t.kind = .templateText := hkind
    rw [hkind] at hscan
    rw [List.drop_left, List.append_assoc]
    -- No plain character comes next, and so none does once the text behind has changed.
    have hq := hnested.proper (q := q) (by simp)
    have hstops := stops_of_templateText hscan hne (by simp [hx])
    have hplain := (hrun.tellsPlain hm hq).plainLength_eq
    rw [plainLength_of_stops hq hstops] at hplain
    have hplain' := (hrun'.tellsPlain hm hq).plainLength_eq
    obtain ⟨-, hdrop⟩ := plainLength_le q (writtenAll ts ++ (p ++ y))
    rw [hplain', ← hplain, List.drop_zero] at hdrop
    obtain ⟨d, z, rfl⟩ := hy.exists_cons
    exact hdrop.resolve_left (by simp)

/-- **A run does not look beyond its end.** -/
lemma Run.append (h : Run modes s ts modes' s') (hs' : s' = p ++ x) (hx : x ≠ []) (hy : Stops y)
    (hm : InBlocks modes') (hnested : Nested modes) (hknown : ∀ t ∈ ts, t.IsKnown)
    (hp : p.head? ≠ some '<')
    (hslash : p = [] → y.head? = some '/' → ∀ t ∈ ts.getLast?, t.text ≠ ['/']) :
    Run modes (writtenAll ts ++ (p ++ y)) ts modes' (p ++ y) := by
  induction h with
  | nil =>
    subst hs'
    exact .nil _ _
  | @cons modes modes₁ modes₂ s s₁ s₂ t ts hlead hscan hne hrest ih =>
    subst hs'
    have hnested₁ : Nested modes₁ := by
      have := (hnested.scan (t.text ++ s₁)).nested
      rwa [hscan] at this
    have hlast : p = [] → y.head? = some '/' → ∀ u ∈ ts.getLast?, u.text ≠ ['/'] := by
      intro hpnil hhead u hu
      refine hslash hpnil hhead u ?_
      cases ts with
      | nil => cases hu
      | cons v ts => rwa [List.getLast?_cons_cons]
    have hknown' : ∀ u ∈ ts, u.IsKnown := fun u hu => hknown u (List.mem_cons_of_mem _ hu)
    have hrun := ih rfl hm hnested₁ hknown' hlast
    rw [hrest.written_eq] at hlead hscan hrest
    -- By the run behind it, the first token ends where it ends; so it is scanned again.
    have hends := ends_of_run hm hnested₁ hx hy hscan hne (hknown t (by simp)) hrest hrun
    have hP : t.text ++ (writtenAll ts ++ p) ≠ [] := List.append_ne_nil_of_left_ne_nil hne _
    have hassoc (z : List Char) : t.text ++ (writtenAll ts ++ (p ++ z)) =
        t.text ++ (writtenAll ts ++ p) ++ z := by simp
    have hsplit : s = t.gap ++ (t.text ++ (writtenAll ts ++ p) ++ x) := by
      have := lead_split modes s
      rw [hlead] at this
      rw [← this, hassoc]
    have hmarked (hmode : inCode modes = true) :=
      marked_of_scan hmode (by rwa [List.append_assoc]) (hknown t (by simp))
    have hletter (hmode : inCode modes = true) :=
      marked_of_letter hmode hscan hne hrest hknown' hp
    rw [hassoc] at hscan hlead
    rw [← hscan] at hends
    have hscan' := scan_append (fun q hq => hnested.proper hq) hy hP hmarked hletter hends
    rw [hscan, ← hassoc] at hscan'
    rw [hsplit] at hlead
    have hlead' := lead_append hy hx hlead hP hends.known hends.length_le fun hP' => ?_
    · refine Run.cons ?_ hscan' hne hrun
      rw [writtenAll_cons, hassoc, ← hlead']
      simp
    · -- A slash alone is the last token.
      obtain ⟨htext, -⟩ | ⟨htext, hempty⟩ := List.append_eq_singleton_iff.mp hP'
      · exact absurd htext hne
      · obtain ⟨hwritten, rfl⟩ := List.append_eq_nil_iff.mp hempty
        obtain rfl : ts = [] := by
          have hle := hrest.length_le
          rw [hwritten] at hle
          exact List.length_eq_zero_iff.mp (Nat.le_zero.mp hle)
        exact fun hhead => hslash rfl hhead t rfl htext

end EloquentEntity.Syntax

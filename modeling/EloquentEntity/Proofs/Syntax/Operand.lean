import EloquentEntity.Proofs.Syntax.Spelling

/-!
Expressions that are one operand.

An expression whose tokens are those of a string, or of a name and `::class`, is nothing but this
operand: what might go on behind it would read further tokens.
-/

namespace EloquentEntity.Syntax

open Syntax.Tree Rules

variable {t : Token} {ts ts' rest : List Token} {us cs : List Tree} {n m : Nat} {k : Kind}
  {v : View}

/-! ### What is known of a token -/

def anyWord : View where
  accepts p := p == .kind .word
  rejects
    | .kind k => k != .word
    | .symbol _ => true
    | _ => false

lemma anyWord_fits (hk : t.kind = .word) : anyWord.Fits t.lexeme := by
  have hkind : t.lexeme.kind = .word := hk
  refine ⟨fun {p} h => ?_, fun {p} h => ?_⟩
  · obtain rfl : p = .kind .word := by simpa [anyWord] using h
    simp [Pattern.accepts, hkind]
  · cases p with
    | kind k =>
      have hne : k ≠ .word := by simpa [anyWord] using h
      simp [Pattern.accepts, hkind, hne.symm]
    | symbol s => simp [Pattern.accepts, hkind]
    | _ => cases h

def plainWord : View where
  accepts
    | .kind k => k == .word
    | .noneOf ws => ws.all (reservedWords.contains ·)
    | _ => false
  rejects
    | .kind k => k != .word
    | .symbol _ => true
    | .keyword w => reservedWords.contains w
    | .oneOf ws => ws.all (reservedWords.contains ·)
    | _ => false

lemma plainWord_fits (hk : t.kind = .word) (ht : IsNone reservedWords t.text) :
    plainWord.Fits t.lexeme := by
  have hkind : t.lexeme.kind = .word := hk
  have hnone {ws : List String} (hws : ws.all (reservedWords.contains ·) = true) :
      ws.any (·.toList == asciiLower t.lexeme.text) = false := by
    rw [List.any_eq_false]
    intro w hw
    have hmem : w ∈ reservedWords := by simpa using List.all_eq_true.mp hws w hw
    have hne : asciiLower t.lexeme.text ≠ w.toList := ht w hmem
    simpa using hne.symm
  refine ⟨fun {p} h => ?_, fun {p} h => ?_⟩
  · cases p with
    | kind k =>
      obtain rfl : k = .word := by simpa [plainWord] using h
      simp [Pattern.accepts, hkind]
    | noneOf ws => simp [Pattern.accepts, hkind, hnone h]
    | _ => cases h
  · cases p with
    | kind k =>
      have hne : k ≠ .word := by simpa [plainWord] using h
      simp [Pattern.accepts, hkind, hne.symm]
    | symbol s => simp [Pattern.accepts, hkind]
    | keyword w =>
      have hmem : w ∈ reservedWords := by simpa [plainWord] using h
      have hw : asciiLower t.lexeme.text ≠ w.toList := ht w hmem
      simp [Pattern.accepts, hw]
    | oneOf ws => simp [Pattern.accepts, hnone h]
    | _ => cases h

def knownSymbol (s : String) : View where
  accepts
    | .kind k => k == .symbol
    | .symbol r => r == s
    | _ => false
  rejects
    | .kind k => k != .symbol
    | .symbol r => r != s
    | .afterTag => false
    | _ => true

lemma knownSymbol_fits {s : String} (h : (Pattern.symbol s).accepts t.lexeme = true) :
    (knownSymbol s).Fits t.lexeme := by
  simp only [Pattern.accepts, Bool.and_eq_true, beq_iff_eq] at h
  obtain ⟨hk, ht⟩ := h
  refine ⟨fun {p} h => ?_, fun {p} h => ?_⟩
  · cases p with
    | kind k =>
      obtain rfl : k = .symbol := by simpa [knownSymbol] using h
      simp [Pattern.accepts, hk]
    | symbol r =>
      obtain rfl : r = s := by simpa [knownSymbol] using h
      simp [Pattern.accepts, hk, ht]
    | _ => cases h
  · cases p with
    | kind k =>
      have hne : k ≠ .symbol := by simpa [knownSymbol] using h
      simp [Pattern.accepts, hk, hne.symm]
    | symbol r =>
      have hne : r ≠ s := by simpa [knownSymbol] using h
      simp [Pattern.accepts, ht, String.toList_inj, hne.symm]
    | afterTag => cases h
    | _ => simp [Pattern.accepts, hk]

/-- A token of a known kind that is neither a word nor a symbol. -/
def knownKind (k : TokenKind) : View where
  accepts p := p == .kind k
  rejects
    | .kind j => j != k
    | .afterTag => false
    | _ => true

lemma knownKind_fits {k : TokenKind} (h : t.kind = k) (hword : k ≠ .word) (hsymbol : k ≠ .symbol) :
    (knownKind k).Fits t.lexeme := by
  have hkind : t.lexeme.kind = k := h
  refine ⟨fun {p} h => ?_, fun {p} h => ?_⟩
  · obtain rfl : p = .kind k := by simpa [knownKind] using h
    simp [Pattern.accepts, hkind]
  · cases p with
    | kind j =>
      have hne : j ≠ k := by simpa [knownKind] using h
      simp [Pattern.accepts, hkind, hne.symm]
    | afterTag => cases h
    | _ => simp [Pattern.accepts, hkind, hword, hsymbol]

/-! ### Operands -/

lemma consumes_following (k : Kind) : (following k).consumes = true := by
  cases k <;> decide

lemma reads_expression_cases (hv : v.Fits t.lexeme) (hlead : leading.refuses grammar v 20 = true)
    (hp : Reads grammar m primary (t :: ts) [.node k cs] ts')
    (h : Reads grammar n expression (t :: ts) us rest) :
    ∃ i q ts'' vs, Reads grammar i (.growFrom (.node k cs) following) ts' q ts'' ∧
      Reads grammar i (.many (.seq infixOperator operand)) ts'' vs rest ∧
      us = [Tree.gather .expression (q ++ vs)] := by
  obtain ⟨_, hrule⟩ := h.ref_cases
  obtain ⟨_, ws, hrow, rfl⟩ := hrule.several_cases
  obtain ⟨i, _, ts'', vs, hoperand, hmore, rfl⟩ := hrow.seq_cases
  obtain ⟨j, ls, ts₁, q, hleading, hgrow, rfl⟩ := hoperand.seq_cases
  obtain ⟨rfl, rfl⟩ : ls = [] ∧ ts₁ = t :: ts := by
    rcases hleading.many_cases with hnil | ⟨_, _, _, _, hone, -⟩
    · exact hnil
    · exact absurd (fails_of_refuses hv hlead) hone.not_fails
  obtain ⟨l, ps, ts₂, hprimary, hgrow⟩ := hgrow.grow_cases
  obtain ⟨rfl, rfl⟩ := hp.unique hprimary
  exact ⟨max i l, q, ts'', vs, (hgrow _ rfl).mono (le_max_right _ _), hmore.mono (le_max_left _ _),
    rfl⟩

/-- Where the operand has taken all tokens, it is the whole expression. -/
lemma reads_expression_primary (hv : v.Fits t.lexeme) (hlead : leading.refuses grammar v 20 = true)
    (hp : Reads grammar m primary (t :: ts) [.node k cs] rest)
    (h : Reads grammar n expression (t :: ts) us rest) : us = [.node k cs] := by
  obtain ⟨i, q, ts'', vs, hgrow, hmore, rfl⟩ := reads_expression_cases hv hlead hp h
  have hle := (derives_of_run hmore).length_le
  obtain rfl := hgrow.growFrom_nil (consumes_following k) hle
  have hle := (derives_of_run hgrow).length_le
  obtain rfl := hmore.many_nil (by decide) hle
  rfl

lemma reads_classConstant {c w : Token} (hc : (Pattern.symbol "::").accepts c.lexeme = true)
    (hw : (Pattern.keyword "class").accepts w.lexeme = true) (ts : List Token) :
    ∃ i, Reads grammar i accessSteps (c :: w :: ts)
      [.node .classConstant [.leaf c, .node .name [.leaf w]]] ts := by
  have hkind : w.kind = .word := Pattern.kind_of_isWord rfl hw
  have hmark (ts : List Token) : Reads grammar 1 (Rule.sym "::") (c :: ts) [.leaf c] ts :=
    reads_token hc
  have hname : Reads grammar 2 label (w :: ts) [.node .name [.leaf w]] ts :=
    (reads_token (p := .kind .word) (by simp [Pattern.accepts, show w.lexeme.kind = _ from hkind])
      ).node .name
  have hvariable : Fails grammar 20 variableName (w :: ts) :=
    fails_of_refuses (anyWord_fits hkind) (by decide +kernel)
  have hscope := Reads.alt_right ((Fails.seq_right (hmark _) hvariable).node .scopedProperty)
    (((hmark _).seq (hname.alt_left (b := braces expression))).node .classConstant)
  exact ⟨_, reads_oneOf (n := 2) (j := 20) rfl (knownSymbol_fits hc) (by decide +kernel) hscope⟩

lemma reads_expression_class {c w : Token} (hv : v.Fits t.lexeme)
    (hlead : leading.refuses grammar v 20 = true) (hk : k = .name ∨ k = .qualifiedName)
    (hp : Reads grammar m primary (t :: ts) [.node k cs] (c :: w :: rest))
    (hc : (Pattern.symbol "::").accepts c.lexeme = true)
    (hw : (Pattern.keyword "class").accepts w.lexeme = true)
    (h : Reads grammar n expression (t :: ts) us rest) :
    us = [.node .classConstant [.node k cs, .leaf c, .node .name [.leaf w]]] := by
  obtain ⟨i, q, ts'', vs, hgrow, hmore, rfl⟩ := reads_expression_cases hv hlead hp h
  have hle := (derives_of_run hmore).length_le
  obtain ⟨j, hstep⟩ := reads_classConstant hc hw rest
  have hsteps : following k = accessSteps := by rcases hk with rfl | rfl <;> rfl
  rcases hgrow.growFrom_cases with ⟨rfl, rfl⟩ | ⟨l, k', vs', ts', hread, hgrow⟩
  · -- No operator starts so, and the last two tokens would be left.
    rcases hmore.many_cases with ⟨-, hrest⟩ | ⟨_, _, _, _, hone, -⟩
    · have hlength := congrArg List.length hrest
      rw [List.length_cons, List.length_cons] at hlength
      omega
    · obtain ⟨_, _, _, _, hinfix, -⟩ := hone.seq_cases
      have hrefuse : infixOperator.refuses grammar (knownSymbol "::") 40 = true := by
        decide +kernel
      exact absurd (fails_of_refuses (knownSymbol_fits hc) hrefuse) hinfix.not_fails
  · rw [hsteps] at hread
    obtain ⟨hvs, rfl⟩ := hstep.unique hread
    simp only [List.cons.injEq, node.injEq, and_true] at hvs
    obtain ⟨rfl, rfl⟩ := hvs
    obtain rfl := hgrow.growFrom_nil (consumes_following _) hle
    have hle := (derives_of_run hgrow).length_le
    obtain rfl := hmore.many_nil (by decide) hle
    rfl

/-! ### Names and strings -/

/-- The rules of operands that are tried before names. -/
def beforeNames : List PhpRule :=
  [variableName, literal, array, .seq (.ref .listPattern) (.ahead (.symbol "=")), parenthesized,
    objectCreation, closure, arrowFunction, matchExpression, yieldExpression,
    .node .relativeName (.seq (Rule.kw "namespace") segments)]

/-- The rules of literals in the order in which they are tried. -/
def literalRules : List PhpRule :=
  [.node .number (Rule.kind .number), .node .singleQuoted (Rule.kind .singleQuoted),
    .node .doubleQuoted (Rule.kind .doubleQuoted), .node .heredoc (Rule.kind .heredoc),
    .node .nowdoc (Rule.kind .nowdoc), template]

/-- The first token of a name that is no reserved word. -/
lemma exists_view_of_fit {n : Segments} {lead : Bool}
    (h : Fit (t :: ts) (namePatterns lead n)) (hn : IsNone reservedWords n.first) :
    ∃ v : View, v.Fits t.lexeme ∧ leading.refuses grammar v 20 = true ∧
      byReference.refuses grammar v 20 = true ∧
      beforeNames.all (·.refuses grammar v 40) = true := by
  cases lead with
  | true =>
    cases h with
    | cons ht _ => exact ⟨_, knownSymbol_fits ht, by decide +kernel⟩
  | false =>
    cases h with
    | cons ht _ =>
      have htext : t.text = n.first := by
        simpa using Pattern.text_eq (p := .exactly (String.ofList n.first)) rfl ht
      exact ⟨_, plainWord_fits (Pattern.kind_of_isWord rfl ht) (htext ▸ hn), by decide +kernel⟩

lemma reads_class_of_fit {n : Segments} {lead : Bool} {row : List Token} {c w : Token} {i : Nat}
    (hrow : Fit row (namePatterns lead n)) (hn : IsNone reservedWords n.first)
    (hc : (Pattern.symbol "::").accepts c.lexeme = true)
    (hw : (Pattern.keyword "class").accepts w.lexeme = true)
    (h : Reads grammar i (.alt byReference expression) (row ++ c :: w :: rest) us rest) :
    ∃ k, us = [.node .classConstant [.node k (leaves row), .leaf c, .node .name [.leaf w]]] := by
  obtain ⟨t, ts, rfl⟩ : ∃ t ts, row = t :: ts := by
    cases row with
    | nil => cases lead <;> cases hrow
    | cons t ts => exact ⟨t, ts, rfl⟩
  obtain ⟨v, hv, hlead, href, hbefore⟩ := exists_view_of_fit hrow hn
  have hfirst : ∀ w : Token, w.kind = .word → w.text = n.first →
      (Pattern.noneOf expressionWords).accepts w.lexeme = true := fun w hk hw =>
    (plainWord_fits hk (hw ▸ hn)).accepts (by decide)
  have hmark : (Pattern.symbol "\\").accepts c.lexeme = false :=
    (knownSymbol_fits hc).rejects (by decide)
  obtain ⟨m, k, hk, hname⟩ := reads_nameOf_row hrow hfirst hmark (w :: rest)
  have hprimary : Reads grammar _ primary (t :: (ts ++ c :: w :: rest))
      [.node k (leaves (t :: ts))] (c :: w :: rest) :=
    reads_oneOf (n := 11) rfl hv hbefore hname
  refine ⟨k, ?_⟩
  obtain ⟨_, hbad | ⟨-, hread⟩⟩ := h.alt_cases
  · exact absurd (fails_of_refuses hv href) hbad.not_fails
  · exact reads_expression_class hv hlead hk hprimary hc hw hread

/-- The kinds of tokens and nodes for strings in which no expression stands. -/
def quotedKinds : List (TokenKind × Kind) :=
  [(.singleQuoted, .singleQuoted), (.doubleQuoted, .doubleQuoted)]

lemma reads_primary_literal {a : PhpRule} (hv : v.Fits t.lexeme)
    (hvariable : variableName.refuses grammar v 20 = true) (i : Nat)
    (hi : literalRules[i]? = some a) (hbefore : (literalRules.take i).all (·.refuses grammar v 20) = true)
    (ha : Reads grammar m a (t :: ts) us rest) : ∃ j, Reads grammar j primary (t :: ts) us rest := by
  have hliteral : Reads grammar _ literal (t :: ts) us rest := reads_oneOf hi hv hbefore ha
  exact ⟨_, reads_oneOf (n := 1) (j := 20) rfl hv (by simpa using hvariable) hliteral⟩

lemma reads_string {i : Nat} (hk : (t.kind, k) ∈ quotedKinds)
    (h : Reads grammar i (.alt byReference expression) (t :: rest) us rest) :
    us = [.node k [.leaf t]] := by
  obtain ⟨v, hv, hlead, href, m, hprimary⟩ : ∃ v : View, v.Fits t.lexeme ∧
      leading.refuses grammar v 20 = true ∧ byReference.refuses grammar v 20 = true ∧
      ∃ m, Reads grammar m primary (t :: rest) [.node k [.leaf t]] rest := by
    have hone {v : View} (hv : v.Fits t.lexeme) (ht : v.accepts (.kind t.kind) = true) :
        Reads grammar 2 (.node k (Rule.kind t.kind)) (t :: rest) [.node k [.leaf t]] rest :=
      (reads_token (hv.accepts ht)).node k
    simp only [quotedKinds, List.mem_cons, Prod.mk.injEq, List.not_mem_nil, or_false] at hk
    obtain ⟨ht, rfl⟩ | ⟨ht, rfl⟩ := hk
    · have hv := knownKind_fits ht (by decide) (by decide)
      rw [ht] at hone
      exact ⟨_, hv, by decide +kernel, by decide +kernel,
        reads_primary_literal hv (by decide +kernel) 1 rfl (by decide +kernel) (hone hv rfl)⟩
    · have hv := knownKind_fits ht (by decide) (by decide)
      rw [ht] at hone
      exact ⟨_, hv, by decide +kernel, by decide +kernel,
        reads_primary_literal hv (by decide +kernel) 2 rfl (by decide +kernel) (hone hv rfl)⟩
  obtain ⟨_, hbad | ⟨-, hread⟩⟩ := h.alt_cases
  · exact absurd (fails_of_refuses hv href) hbad.not_fails
  · exact reads_expression_primary hv hlead hprimary hread

end EloquentEntity.Syntax

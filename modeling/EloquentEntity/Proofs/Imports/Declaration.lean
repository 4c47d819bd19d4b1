import EloquentEntity.Imports
import EloquentEntity.Proofs.Syntax.NodeRules

/-!
What import declarations and their clauses are made of.

After `use` there is a row of clauses parted by commas, or else the name of a namespace and a group
of clauses in braces. A clause has a name, which may have the word `function` or `const` in front
and an alias behind. Where that word is next it is always read as the mark, never as part of a name.
-/

namespace EloquentEntity.Imports

open Syntax Syntax.Tree Syntax.Rules
open Syntax.Rule (opt commaList)

def keyword : Pattern := .oneOf ["function", "const"]

variable {n : Nat} {t : Token} {ts rest : List Token} {us vs : List Tree} {a : PhpRule}
  {p : Pattern} {d : Tree}

/-! ### Rows -/

def commaRow (first : Tree) (more : List (Token × Tree)) : List Tree :=
  first :: more.flatMap fun x => [.leaf x.1, x.2]

lemma filter_commaRow {q : Tree → Bool} (hq : ∀ t, q (.leaf t) = false) (first : Tree)
    (more : List (Token × Tree)) :
    (commaRow first more).filter q = (first :: more.map Prod.snd).filter q := by
  have hmore : (more.flatMap fun x => [.leaf x.1, x.2]).filter q =
      (more.map Prod.snd).filter q := by
    induction more with
    | nil => rfl
    | cons x more ih =>
      rw [List.flatMap_cons, List.filter_append, ih, List.map_cons, List.filter_cons,
        List.filter_cons, hq, List.filter_cons]
      cases q x.2 <;> rfl
  rw [commaRow, List.filter_cons, List.filter_cons, hmore]

/-- What is read of a comma list, if each item is a single tree. -/
lemma reads_commaList {P : Tree → Prop}
    (ha : ∀ {m ts us rest}, Reads grammar m a ts us rest → ∃ t, us = [t] ∧ P t)
    (h : Reads grammar n (commaList a) ts us rest) :
    ∃ first more, us = commaRow first more ∧ (∀ t ∈ first :: more.map Prod.snd, P t) ∧
      (∀ x ∈ more, (Pattern.symbol ",").accepts x.1.lexeme = true) ∧
      ∃ m ts', Reads grammar m a ts [first] ts' := by
  obtain ⟨m, vs, ts', ws, hfirst, hmany, rfl⟩ := h.seq_cases
  obtain ⟨first, rfl, hP⟩ := ha hfirst
  obtain ⟨more, rfl, hmore⟩ : ∃ more : List (Token × Tree),
      ws = (more.flatMap fun x => [.leaf x.1, x.2]) ∧
      ∀ x ∈ more, P x.2 ∧ (Pattern.symbol ",").accepts x.1.lexeme = true := by
    refine Reads.many_induction (P := fun ws => ∃ more : List (Token × Tree),
      ws = (more.flatMap fun x => [.leaf x.1, x.2]) ∧
      ∀ x ∈ more, P x.2 ∧ (Pattern.symbol ",").accepts x.1.lexeme = true)
      ⟨[], rfl, by simp⟩ (fun hread ⟨more, hvs, hmore⟩ => ?_) hmany
    obtain ⟨_, _, _, _, hmark, hitem, rfl⟩ := hread.seq_cases
    obtain ⟨comma, -, rfl, hcomma⟩ := hmark.token_cases
    obtain ⟨item, rfl, hP⟩ := ha hitem
    exact ⟨(comma, item) :: more, by rw [hvs]; rfl,
      List.forall_mem_cons.mpr ⟨⟨hP, hcomma⟩, hmore⟩⟩
  refine ⟨first, more, rfl, List.forall_mem_cons.mpr ⟨hP, fun t ht => ?_⟩,
    fun x hx => (hmore x hx).2, m, ts', hfirst⟩
  obtain ⟨x, hx, rfl⟩ := List.mem_map.mp ht
  exact (hmore x hx).1

/-! ### The mark -/

lemma accepts_keyword (l : Lexeme) :
    keyword.accepts l = (["function", "const"].map Pattern.keyword).any (·.accepts l) := by
  cases hk : l.kind == .word <;> simp [keyword, Pattern.accepts, hk, BEq.comm (a := asciiLower _)]

lemma keyword_of_symbol {l : Lexeme} {s : String} (h : (Pattern.symbol s).accepts l = true) :
    keyword.accepts l = false := by
  simp_all [keyword, Pattern.accepts]

lemma reads_importKind (h : keyword.accepts t.lexeme = true) (ts : List Token) :
    Reads grammar 3 importKind (t :: ts) [.leaf t] ts :=
  reads_oneOf_tokens ((accepts_keyword _).symm.trans h) ts

lemma importKind_cases (h : Reads grammar n importKind ts us rest) :
    ∃ t, ts = t :: rest ∧ us = [.leaf t] ∧ keyword.accepts t.lexeme = true := by
  obtain ⟨m, h | ⟨-, h⟩⟩ := h.alt_cases
  all_goals
    obtain ⟨t, rfl, rfl, ht⟩ := h.token_cases
    exact ⟨t, rfl, rfl, by simp [accepts_keyword, ht]⟩

/-- What a rule reads stands in front of what it leaves. -/
lemma tokens_of_reads (ha : a.check nameRule isUnnamed = true)
    (h : Reads grammar n a ts us rest) : ts = tokensAll us ++ rest := by
  simpa [tokensAll] using (derives_of_run h).tokens_eq check_grammar (.fresh ha)

/-- The mark of an import, or nothing where no such word comes first. -/
def IsMark (mark more : List Tree) : Prop :=
  (mark = [] ∧ ∀ t ∈ (tokensAll more).head?, keyword.accepts t.lexeme = false) ∨
    ∃ t, mark = [.leaf t] ∧ keyword.accepts t.lexeme = true

lemma reads_mark {ts' : List Token} (h : Reads grammar n (opt importKind) ts us ts')
    (hts : ts' = tokensAll vs ++ rest) : IsMark us vs := by
  obtain ⟨m, h⟩ | ⟨rfl, rfl, m, hfails⟩ := h.opt_cases
  · obtain ⟨t, -, rfl, ht⟩ := importKind_cases h
    exact .inr ⟨t, rfl, ht⟩
  · refine .inl ⟨rfl, fun t ht => ?_⟩
    obtain ⟨more, hmore⟩ := List.head?_eq_some_iff.mp ht
    rw [Bool.eq_false_iff]
    intro hkey
    rw [hts, hmore] at hfails
    exact (reads_importKind hkey _).not_fails hfails

/-- No direct child is such a word, apart from the mark. -/
lemma IsMark.hasToken_eq {mark more : List Tree} (h : IsMark mark more) {k : Kind}
    (hmore : (Syntax.Tree.node k more).hasToken keyword = false) (hne : tokensAll more ≠ []) :
    (Syntax.Tree.node k (mark ++ more)).hasToken keyword =
      (tokensAll (mark ++ more)).head?.any (keyword.accepts ·.lexeme) := by
  obtain ⟨rfl, hnone⟩ | ⟨t, rfl, ht⟩ := h
  · obtain ⟨t, ts, hts⟩ := List.exists_cons_of_ne_nil hne
    rw [List.nil_append, hmore, hts]
    exact (hnone t (by rw [hts]; rfl)).symm
  · simp [hasToken, children, tokensAll, Tree.tokens, ht]

/-! ### Clauses -/

/-- A name: words parted by backslashes, of which one may stand in front. -/
structure IsName (t : Tree) : Prop where
  kind : IsNameNode t
  row : ∃ init w, t.children = leaves (init ++ [w]) ∧ w.kind = .word ∧
    ∀ b ∈ init.getLast?, (Pattern.symbol "\\").accepts b.lexeme = true

/-- What ends in a backslash and a word. -/
def EndsInSegment (us : List Tree) : Prop :=
  ∃ init b w, us = leaves (init ++ [b, w]) ∧ w.kind = .word ∧
    (Pattern.symbol "\\").accepts b.lexeme = true

lemma EndsInSegment.append (h : EndsInSegment us) (ts : List Token) :
    EndsInSegment (leaves ts ++ us) := by
  obtain ⟨init, b, w, rfl, hw, hb⟩ := h
  exact ⟨ts ++ init, b, w, by simp [leaves], hw, hb⟩

lemma reads_segments (h : Reads grammar n segments ts us rest) : EndsInSegment us := by
  have hone {m : Nat} {ts : List Token} {us : List Tree} {rest : List Token}
      (h : Reads grammar m (.seq (Rule.sym "\\") word) ts us rest) :
      ∃ b w, us = leaves [b, w] ∧ w.kind = .word ∧
        (Pattern.symbol "\\").accepts b.lexeme = true := by
    obtain ⟨_, _, _, _, hmark, hword, rfl⟩ := h.seq_cases
    obtain ⟨b, -, rfl, hb⟩ := hmark.token_cases
    obtain ⟨w, -, rfl, hw⟩ := hword.token_cases
    exact ⟨b, w, rfl, by simpa [Pattern.accepts, Token.kind] using hw, hb⟩
  obtain ⟨m, vs, ts', ws, hfirst, hmore, rfl⟩ := h.seq_cases
  obtain ⟨b, w, rfl, hw, hb⟩ := hone hfirst
  have hrow : ws = [] ∨ EndsInSegment ws := by
    refine Reads.many_induction (P := fun ws => ws = [] ∨ EndsInSegment ws) (.inl rfl)
      (fun hread hvs => .inr ?_) hmore
    obtain ⟨b, w, rfl, hw, hb⟩ := hone hread
    obtain rfl | hvs := hvs
    · exact ⟨[], b, w, by simp, hw, hb⟩
    · exact hvs.append [b, w]
  obtain rfl | hws := hrow
  · exact ⟨[], b, w, by simp, hw, hb⟩
  · exact hws.append [b, w]

lemma IsName.of_segments {k : Kind} (hk : IsNameNode (.node k us)) (h : EndsInSegment us) :
    IsName (.node k us) := by
  obtain ⟨init, b, w, rfl, hw, hb⟩ := h
  exact ⟨hk, init ++ [b], w, by simp [children], hw, by simpa using hb⟩

lemma reads_nameOf (hp : p.isWord = true) (h : Reads grammar n (nameOf p) ts us rest) :
    ∃ t, us = [t] ∧ IsName t := by
  obtain ⟨_, hbare | ⟨-, h⟩⟩ := h.alt_cases
  · obtain ⟨_, vs, hrow, rfl⟩ := hbare.node_cases
    exact ⟨_, rfl, .of_segments (.inr rfl) (reads_segments hrow)⟩
  obtain ⟨_, hqualified | ⟨-, hsingle⟩⟩ := h.alt_cases
  · obtain ⟨_, vs, hrow, rfl⟩ := hqualified.node_cases
    obtain ⟨_, _, _, _, hfirst, hmore, rfl⟩ := hrow.seq_cases
    obtain ⟨t, -, rfl, -⟩ := hfirst.token_cases
    exact ⟨_, rfl, .of_segments (.inr rfl) ((reads_segments hmore).append [t])⟩
  · obtain ⟨_, vs, hword, rfl⟩ := hsingle.node_cases
    obtain ⟨t, -, rfl, ht⟩ := hword.token_cases
    exact ⟨_, rfl, .inl rfl, [], t, rfl, Pattern.kind_of_isWord hp ht, by simp⟩

def IsRename (us : List Tree) : Prop :=
  us = [] ∨ ∃ as w, us = [.leaf as, .node .name [.leaf w]] ∧
    (Pattern.keyword "as").accepts as.lexeme = true ∧ w.kind = .word

lemma reads_rename (h : Reads grammar n (opt aliasClause) ts us rest) : IsRename us := by
  obtain ⟨m, hclause⟩ | ⟨rfl, -⟩ := h.opt_cases
  · obtain ⟨_, _, _, _, hword, hlabel, rfl⟩ := hclause.seq_cases
    obtain ⟨as, -, rfl, has⟩ := hword.token_cases
    obtain ⟨_, _, hname, rfl⟩ := hlabel.node_cases
    obtain ⟨w, -, rfl, hw⟩ := hname.token_cases
    exact .inr ⟨as, w, rfl, has, by simpa [Pattern.accepts, Token.kind] using hw⟩
  · exact .inl rfl

lemma IsName.exists_node {t : Tree} (h : IsName t) : ∃ k cs, t = .node k cs := by
  cases t with
  | leaf t => obtain hk | hk := h.kind <;> cases hk
  | node k cs => exact ⟨k, cs, rfl⟩

lemma IsName.tokens_ne_nil {t : Tree} (h : IsName t) : t.tokens ≠ [] := by
  obtain ⟨hkind, init, w, hrow, -⟩ := h
  cases t with
  | leaf t => simp [Tree.tokens]
  | node k cs =>
    rw [children] at hrow
    rw [Tree.tokens, hrow, tokensAll_leaves]
    simp

/-- A clause: a mark, a name and an alias. -/
structure IsClause (c : Tree) : Prop where
  parts : ∃ mark name rename, c = .node .useClause (mark ++ name :: rename) ∧
    IsMark mark (name :: rename) ∧ IsName name ∧ IsRename rename

lemma reads_useClause (h : Reads grammar n useClause ts us rest) : ∃ c, us = [c] ∧ IsClause c := by
  obtain ⟨_, vs, hbody, rfl⟩ := h.node_cases
  obtain ⟨_, _, _, _, hmark, hmore, rfl⟩ := hbody.seq_cases
  have htokens := tokens_of_reads (by decide) hmore
  obtain ⟨_, _, _, _, hread, hrename, rfl⟩ := hmore.seq_cases
  obtain ⟨name, rfl, hname⟩ := reads_nameOf rfl hread
  exact ⟨_, rfl, _, name, _, rfl, reads_mark hmark htokens, hname, reads_rename hrename⟩

lemma reads_groupClause (h : Reads grammar n groupClause ts us rest) :
    ∃ c, us = [c] ∧ IsClause c := by
  obtain ⟨_, vs, hbody, rfl⟩ := h.node_cases
  obtain ⟨_, _, _, _, hmark, hmore, rfl⟩ := hbody.seq_cases
  have htokens := tokens_of_reads (by decide) hmore
  obtain ⟨_, _, _, _, hahead, hrest, rfl⟩ := hmore.seq_cases
  obtain ⟨rfl, -⟩ := hahead.notAhead_cases
  obtain ⟨_, _, _, _, hread, hrename, rfl⟩ := hrest.seq_cases
  obtain ⟨name, rfl, hname⟩ := reads_nameOf rfl hread
  exact ⟨_, rfl, _, name, _, rfl, reads_mark hmark htokens, hname, reads_rename hrename⟩

namespace IsClause

variable {c : Tree}

lemma tokens_ne_nil (h : IsClause c) : c.tokens ≠ [] := by
  obtain ⟨mark, name, rename, rfl, -, hname, -⟩ := h.parts
  simp [Tree.tokens, tokensAll_append, tokensAll, hname.tokens_ne_nil]

lemma is_useClause (h : IsClause c) : c.is .useClause = true := by
  obtain ⟨_, _, _, rfl, -⟩ := h.parts
  rfl

lemma nodes_cases (h : IsClause c) : ∃ name, IsName name ∧ (c.nodes = [name] ∨
    ∃ w, c.nodes = [name, .node .name [.leaf w]] ∧ w.kind = .word) := by
  obtain ⟨mark, name, rename, rfl, hmark, hname, hrename⟩ := h.parts
  have hnone : mark.filter (·.kind?.isSome) = [] := by
    obtain ⟨rfl, -⟩ | ⟨t, rfl, -⟩ := hmark <;> rfl
  refine ⟨name, hname, ?_⟩
  obtain ⟨k, cs, rfl⟩ := hname.exists_node
  rw [nodes, children, List.filter_append, hnone, List.nil_append]
  obtain rfl | ⟨as, w, rfl, -, hw⟩ := hrename
  · exact .inl rfl
  · exact .inr ⟨w, rfl, hw⟩

/-- A clause is one of functions or constants just if such a word comes first. -/
lemma isNoClass_eq (h : IsClause c) :
    isNoClass c = c.tokens.head?.any (keyword.accepts ·.lexeme) := by
  obtain ⟨mark, name, rename, rfl, hmark, hname, hrename⟩ := h.parts
  obtain ⟨k, cs, rfl⟩ := hname.exists_node
  refine hmark.hasToken_eq ?_ (by simp [tokensAll, hname.tokens_ne_nil])
  obtain rfl | ⟨as, w, rfl, has, -⟩ := hrename
  · rfl
  · have has : keyword.accepts as.lexeme = false := by
      simp_all [keyword, Pattern.accepts]
    simp [has]

end IsClause

/-! ### Declarations -/

def IsEnd (us : List Tree) : Prop :=
  us = [] ∨ ∃ t, us = [.leaf t] ∧ (Pattern.symbol ";").accepts t.lexeme = true

lemma reads_terminator (h : Reads grammar n terminator ts us rest) : IsEnd us := by
  obtain ⟨_, hmark | ⟨-, hahead⟩⟩ := h.alt_cases
  · obtain ⟨t, -, rfl, ht⟩ := hmark.token_cases
    exact .inr ⟨t, rfl, ht⟩
  · exact .inl hahead.ahead_cases.1

def IsGroup (g : Tree) : Prop :=
  ∃ left first more right, g = .node .useGroup (.leaf left :: commaRow first more ++ [.leaf right]) ∧
    ∀ c ∈ first :: more.map Prod.snd, IsClause c

/-- A mark and a namespace, which may have a backslash in front, before a backslash and a group. -/
def IsGrouped (us : List Tree) : Prop :=
  ∃ mark lead names sep group, us = mark ++ (leaves lead ++
      [.node .namespaceName (leaves names), .leaf sep, group]) ∧
    IsMark mark (leaves lead ++ [.node .namespaceName (leaves names), .leaf sep, group]) ∧
    (∀ t ∈ lead, (Pattern.symbol "\\").accepts t.lexeme = true) ∧
    (Pattern.symbol "\\").accepts sep.lexeme = true ∧ IsGroup group

def IsRow (us : List Tree) : Prop :=
  ∃ first more, us = commaRow first more ∧ (∀ c ∈ first :: more.map Prod.snd, IsClause c) ∧
    ∀ x ∈ more, (Pattern.symbol ",").accepts x.1.lexeme = true

/-- A declaration: a row of clauses after `use`, or a namespace and a group. -/
structure IsDeclaration (d : Tree) : Prop where
  parts : ∃ use us term, d = .node .useDeclaration (.leaf use :: (us ++ term)) ∧
    (Pattern.keyword "use").accepts use.lexeme = true ∧ (IsGrouped us ∨ IsRow us) ∧ IsEnd term

lemma reads_namespaceName (h : Reads grammar n namespaceName ts us rest) :
    ∃ names, us = [.node .namespaceName (leaves names)] := by
  obtain ⟨_, vs, hbody, rfl⟩ := h.node_cases
  obtain ⟨_, _, _, _, hfirst, hmore, rfl⟩ := hbody.seq_cases
  obtain ⟨t, -, rfl, -⟩ := hfirst.token_cases
  obtain ⟨m, hsegments⟩ | ⟨rfl, -⟩ := hmore.opt_cases
  · obtain ⟨init, b, w, rfl, -⟩ := reads_segments hsegments
    exact ⟨t :: (init ++ [b, w]), by simp [leaves]⟩
  · exact ⟨[t], rfl⟩

lemma reads_group (h : Reads grammar n (.node .useGroup (braces (commaList groupClause))) ts us rest) :
    ∃ g, us = [g] ∧ IsGroup g := by
  obtain ⟨_, vs, hbody, rfl⟩ := h.node_cases
  obtain ⟨_, _, _, _, hleft, hmore, rfl⟩ := hbody.seq_cases
  obtain ⟨left, -, rfl, -⟩ := hleft.token_cases
  obtain ⟨_, _, _, _, hrow, hright, rfl⟩ := hmore.seq_cases
  obtain ⟨right, -, rfl, -⟩ := hright.token_cases
  obtain ⟨first, more, rfl, hclauses, -⟩ := reads_commaList reads_groupClause hrow
  exact ⟨_, rfl, left, first, more, right, rfl, hclauses⟩

lemma reads_useGroup (h : Reads grammar n useGroup ts us rest) : IsGrouped us := by
  obtain ⟨_, mark, _, more, hmark, hmore, rfl⟩ := h.seq_cases
  have htokens := tokens_of_reads (by decide) hmore
  obtain ⟨_, lead, _, _, hopt, hspaces, rfl⟩ := hmore.seq_cases
  obtain ⟨_, _, _, _, hspace, hsegment, rfl⟩ := hspaces.seq_cases
  obtain ⟨_, _, _, _, hbackslash, hgroup, rfl⟩ := hsegment.seq_cases
  obtain ⟨names, rfl⟩ := reads_namespaceName hspace
  obtain ⟨sep, -, rfl, hsep⟩ := hbackslash.token_cases
  obtain ⟨g, rfl, hg⟩ := reads_group hgroup
  obtain ⟨lead, rfl, hlead⟩ : ∃ ts, lead = leaves ts ∧
      ∀ t ∈ ts, (Pattern.symbol "\\").accepts t.lexeme = true := by
    obtain ⟨_, htoken⟩ | ⟨rfl, -⟩ := hopt.opt_cases
    · obtain ⟨b, -, rfl, hb⟩ := htoken.token_cases
      exact ⟨[b], rfl, by simpa using hb⟩
    · exact ⟨[], rfl, by simp⟩
  exact ⟨mark, lead, names, sep, g, rfl, reads_mark hmark htokens, hlead, hsep, hg⟩

lemma reads_declaration (h : Reads grammar n useDeclaration ts us rest) :
    ∃ d, us = [d] ∧ IsDeclaration d := by
  obtain ⟨_, vs, hbody, rfl⟩ := h.node_cases
  obtain ⟨_, _, _, _, hword, hmore, rfl⟩ := hbody.seq_cases
  obtain ⟨use, -, rfl, huse⟩ := hword.token_cases
  obtain ⟨_, us, _, term, hclauses, hterm, rfl⟩ := hmore.seq_cases
  refine ⟨_, rfl, use, us, term, rfl, huse, ?_, reads_terminator hterm⟩
  obtain ⟨_, hgroup | ⟨-, hrow⟩⟩ := hclauses.alt_cases
  · exact .inl (reads_useGroup hgroup)
  · obtain ⟨first, more, rfl, hclauses, hcommas, -⟩ := reads_commaList reads_useClause hrow
    exact .inr ⟨first, more, rfl, hclauses, hcommas⟩

lemma exists_reads_of_declaration {source : String} {root : Tree} (h : parse source = some root)
    (hd : d ∈ root.preorder) (hk : d.is .useDeclaration = true) :
    ∃ n ts cs rest, d = .node .useDeclaration cs ∧
      Reads Rules.grammar n useDeclaration.body ts cs rest := by
  cases d with
  | leaf t => cases hk
  | node k cs =>
    obtain rfl : k = .useDeclaration := by simpa [Tree.is, kind?] using hk
    obtain ⟨b, hb, n, ts, rest, hread⟩ := reads_of_mem h hd rfl
    obtain rfl := List.mem_singleton.mp hb
    exact ⟨n, ts, cs, rest, rfl, hread⟩

/-- **The declarations of a source** have these parts. -/
theorem isDeclaration_of_parse {source : String} {root : Tree} (h : parse source = some root)
    (hd : d ∈ root.preorder) (hk : d.is .useDeclaration = true) : IsDeclaration d := by
  obtain ⟨n, ts, cs, rest, rfl, hread⟩ := exists_reads_of_declaration h hd hk
  obtain ⟨d, hd, hdeclaration⟩ := reads_declaration (hread.node .useDeclaration)
  obtain rfl := List.singleton_inj.mp hd
  exact hdeclaration

/-! ### What is looked up in a declaration -/

def hasKeyword (d : Tree) : Bool := d.tokens[1]?.any (keyword.accepts ·.lexeme)

section Parts

variable {use : Token} {term : List Tree}

lemma hasKeyword_declaration (k : Kind) (hne : tokensAll us ≠ []) :
    hasKeyword (node k (.leaf use :: (us ++ term))) =
      (tokensAll us).head?.any (keyword.accepts ·.lexeme) := by
  obtain ⟨t, ts, hts⟩ := List.exists_cons_of_ne_nil hne
  simp [hasKeyword, Tree.tokens, tokensAll, tokensAll_append, hts]

variable (hterm : IsEnd term) (huse : (Pattern.keyword "use").accepts use.lexeme = true)

include hterm

/-- The word `use` and the semicolon are of no kind. -/
lemma childrenOf_declaration (us : List Tree) (k : Kind) :
    (node .useDeclaration (.leaf use :: (us ++ term))).childrenOf k = us.filter (·.is k) := by
  have hend : term.filter (·.is k) = [] := by obtain rfl | ⟨t, rfl, -⟩ := hterm <;> rfl
  rw [childrenOf, children, List.filter_cons_of_neg (by simp [Tree.is, kind?]), List.filter_append,
    hend, List.append_nil]

include huse

lemma isNoClass_declaration (us : List Tree) :
    isNoClass (node .useDeclaration (.leaf use :: (us ++ term))) =
      (node .useDeclaration us).hasToken keyword := by
  have huse : keyword.accepts use.lexeme = false := by simp_all [keyword, Pattern.accepts]
  have hend : (node .useDeclaration term).hasToken keyword = false := by
    obtain rfl | ⟨t, rfl, ht⟩ := hterm
    · rfl
    · simp [keyword_of_symbol ht]
  change (node .useDeclaration (.leaf use :: (us ++ term))).hasToken keyword = _
  simp [huse, hend]

/-- In front of a group the word belongs to the declaration. -/
lemma IsGrouped.isNoClass_eq (h : IsGrouped us) :
    isNoClass (node .useDeclaration (.leaf use :: (us ++ term))) =
      hasKeyword (node .useDeclaration (.leaf use :: (us ++ term))) := by
  obtain ⟨mark, lead, names, sep, group, rfl, hmark, hlead, hsep, hgroup⟩ := h
  obtain ⟨left, first, more, right, rfl, -⟩ := hgroup
  have hne (us vs ws : List Tree) (k j : Kind) :
      tokensAll (us ++ (leaves lead ++ [.node k vs, .leaf sep, .node j ws])) ≠ [] := by
    simp [tokensAll_append, tokensAll, Tree.tokens]
  rw [isNoClass_declaration hterm huse, hasKeyword_declaration _ (hne _ _ _ _ _)]
  refine hmark.hasToken_eq ?_ (hne [] _ _ _ _)
  have hlead : lead.any (keyword.accepts ·.lexeme) = false :=
    List.any_eq_false.mpr fun t ht => by simp [keyword_of_symbol (hlead t ht)]
  simp [hlead, keyword_of_symbol hsep]

lemma IsRow.isNoClass_eq (h : IsRow us) :
    isNoClass (node .useDeclaration (.leaf use :: (us ++ term))) = false := by
  obtain ⟨first, more, rfl, hclauses, hcommas⟩ := h
  have hnode : ∀ c ∈ first :: more.map Prod.snd, ∃ cs, c = .node .useClause cs := fun c hc => by
    obtain ⟨mark, name, rename, rfl, -⟩ := (hclauses c hc).parts
    exact ⟨_, rfl⟩
  obtain ⟨⟨cs, rfl⟩, hmore⟩ := List.forall_mem_cons.mp hnode
  rw [isNoClass_declaration hterm huse, commaRow, hasToken_node_cons]
  clear hclauses hnode
  induction more with
  | nil => rfl
  | cons x more ih =>
    obtain ⟨comma, c⟩ := x
    rw [List.map_cons, List.forall_mem_cons] at hmore
    obtain ⟨⟨cs, rfl⟩, hmore⟩ := hmore
    obtain ⟨hcomma, hcommas⟩ := List.forall_mem_cons.mp hcommas
    simpa [keyword_of_symbol hcomma] using ih hcommas hmore

end Parts

/-! ### Clauses among the children -/

lemma filter_useClause {first : Tree} {more : List (Token × Tree)}
    (h : ∀ c ∈ first :: more.map Prod.snd, IsClause c) :
    (commaRow first more).filter (·.is .useClause) = first :: more.map Prod.snd := by
  rw [filter_commaRow (by simp [Tree.is, kind?]), List.filter_eq_self]
  exact fun c hc => (h c hc).is_useClause

lemma IsGroup.childrenOf_eq {g : Tree} (h : IsGroup g) :
    ∃ first more, g.childrenOf .useClause = first :: more ∧ ∀ c ∈ first :: more, IsClause c := by
  obtain ⟨left, first, more, right, rfl, hclauses⟩ := h
  refine ⟨first, more.map Prod.snd, ?_, hclauses⟩
  rw [childrenOf, children, List.cons_append, List.filter_cons_of_neg (by simp [Tree.is, kind?]),
    List.filter_append, filter_useClause hclauses]
  simp [Tree.is, kind?]

lemma IsRow.exists_clauses (h : IsRow us) : ∃ first more, us.filter (·.is .useClause) = first :: more ∧
    us.filter (·.is .useGroup) = [] ∧ (∀ c ∈ first :: more, IsClause c) ∧
    (tokensAll us).head? = first.tokens.head? ∧ tokensAll us ≠ [] := by
  obtain ⟨first, more, rfl, hclauses, -⟩ := h
  have hne := (hclauses first (by simp)).tokens_ne_nil
  refine ⟨first, more.map Prod.snd, ?_, ?_, hclauses, ?_, by simp [commaRow, tokensAll, hne]⟩
  · exact filter_useClause hclauses
  · rw [filter_commaRow (by simp [Tree.is, kind?]), List.filter_eq_nil_iff]
    intro c hc
    obtain ⟨mark, name, rename, rfl, -⟩ := (hclauses c hc).parts
    simp [Tree.is, kind?]
  · obtain ⟨t, ts, hts⟩ := List.exists_cons_of_ne_nil hne
    simp [commaRow, tokensAll, hts]

/-- The only parts of a kind are the namespace and the group. -/
lemma IsGrouped.exists_group (h : IsGrouped us) : ∃ names group, IsGroup group ∧
    us.filter (·.is .useGroup) = [group] ∧ us.filter (·.is .useClause) = [] ∧
    us.filter (·.is .namespaceName) = [.node .namespaceName (leaves names)] := by
  obtain ⟨mark, lead, names, sep, group, rfl, hmark, -, -, hgroup⟩ := h
  refine ⟨names, group, hgroup, ?_⟩
  obtain ⟨left, first, more, right, rfl, -⟩ := hgroup
  have hmark (k : Kind) : mark.filter (·.is k) = [] := by
    obtain ⟨rfl, -⟩ | ⟨t, rfl, -⟩ := hmark <;> rfl
  simp only [List.filter_append, hmark, filter_leaves, List.nil_append]
  exact ⟨rfl, rfl, rfl⟩

end EloquentEntity.Imports

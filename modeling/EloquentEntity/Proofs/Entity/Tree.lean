import EloquentEntity.Proofs.Entity.Tokens
import EloquentEntity.Proofs.Syntax.Grammar
import EloquentEntity.Proofs.Syntax.Tree
import EloquentEntity.Syntax.Source

/-!
The syntax tree of a generated class.

The grammar reads the tokens of an outline as one tree. The words of the outline are not known, so
each rule that meets one gets a lemma; where only known tokens are met, the grammar is run.
-/

namespace EloquentEntity

open Syntax Syntax.Rules Syntax.Tree
open Syntax.Rule (all opt sym kw kind oneOf oneKw oneSym commaList)

variable {g w : List Char} {t : Token} {ts : List Token} {n : Segments}

/-! ### Keywords -/

def IsNone (ws : List String) (w : List Char) : Prop := ∀ k ∈ ws, asciiLower w ≠ k.toList

lemma IsNone.mono {ws ws' : List String} (h : IsNone ws w) (hws : ∀ k ∈ ws', k ∈ ws) :
    IsNone ws' w :=
  fun k hk => h k (hws k hk)

lemma fails_oneKw {ws : List String} (h : IsNone ws w) (g : List Char) (ts : List Token) :
    Fails grammar (ws.length + 1) (oneKw ws) (wordAt g w :: ts) := by
  have hnone : (ws.map Pattern.keyword).any (·.accepts (wordAt g w).lexeme) = false := by
    rw [List.any_map, List.any_eq_false]
    exact fun k hk => by simpa [Pattern.accepts, wordAt] using h k hk
  have hfails : Fails grammar _ (oneOf ((ws.map Pattern.keyword).map .token)) (wordAt g w :: ts) :=
    fails_oneOf_tokens hnone ts
  rwa [List.map_map, List.length_map] at hfails

namespace Segments

/-! ### Names -/

def Ends (t : Token) : Prop := (Pattern.symbol "\\").accepts t.lexeme = false

lemma fails_segments (ht : Ends t) (ts : List Token) : Fails grammar 4 segments (t :: ts) := by
  have hmark : Fails grammar 1 (sym "\\") (t :: ts) := if_neg (by rw [ht]; simp)
  exact hmark.seq_left.seq_left.mono (by omega)

lemma reads_segments (w : List Char) (ws : List (List Char)) (ht : Ends t) (ts : List Token) :
    Reads grammar (ws.length + 5) segments ((w :: ws).flatMap moreTokens ++ t :: ts)
      (leaves ((w :: ws).flatMap moreTokens)) (t :: ts) := by
  have hone (w : List Char) (ts : List Token) : Reads grammar 2 (.seq (sym "\\") word)
      (moreTokens w ++ ts) (leaves (moreTokens w)) ts := rfl
  have hend : Fails grammar 2 (.seq (sym "\\") word) (t :: ts) :=
    Fails.seq_left (if_neg (by rw [ht]; simp))
  have hmore : Reads grammar _ (.many (.seq (sym "\\") word))
      (ws.flatMap moreTokens ++ t :: ts) (ws.flatMap fun w => leaves (moreTokens w)) (t :: ts) :=
    reads_many (fun _ => True) (fun _ _ _ => trivial) (fun w _ ts _ => hone w ts) trivial hend
  have hleaves : leaves ((w :: ws).flatMap moreTokens) =
      leaves (moreTokens w) ++ ws.flatMap fun w => leaves (moreTokens w) := by
    rw [List.flatMap_cons, leaves, List.map_append, List.map_flatMap]
    rfl
  rw [hleaves, List.flatMap_cons, List.append_assoc]
  exact ((hone w _).seq hmore).mono (by omega)

def namespaceTree (g : List Char) (n : Segments) : Tree :=
  .node .namespaceName (leaves (n.tokens g))

lemma reads_namespaceName (ht : Ends t) : Reads grammar (n.more.length + 10) namespaceName
    (n.tokens g ++ t :: ts) [n.namespaceTree g] (t :: ts) := by
  obtain ⟨first, ws⟩ := n
  cases ws with
  | nil =>
    have hfirst : Reads grammar 1 word (wordAt g first :: t :: ts) [.leaf (wordAt g first)]
        (t :: ts) := rfl
    exact ((hfirst.seq (reads_opt_none (fails_segments ht ts))).node _).mono (by omega)
  | cons w ws =>
    have hfirst (ts : List Token) :
        Reads grammar 1 word (wordAt g first :: ts) [.leaf (wordAt g first)] ts := rfl
    have hall := (hfirst _).seq (reads_segments w ws ht ts).opt
    exact (hall.node .namespaceName).mono (by simp)

/-- The tree of a name: a single word stands for itself. -/
def nameTree (g : List Char) (n : Segments) : Tree :=
  .node (if n.more = [] then .name else .qualifiedName) (leaves (n.tokens g))

lemma reads_name (ht : Ends t) : Reads grammar (n.more.length + 10) (nameOf (.kind .word))
    (n.tokens g ++ t :: ts) [n.nameTree g] (t :: ts) := by
  obtain ⟨first, ws⟩ := n
  have hword (ts : List Token) : Reads grammar 1 (.token (.kind .word)) (wordAt g first :: ts)
      [.leaf (wordAt g first)] ts := rfl
  have hmark (ts : List Token) :
      Fails grammar 4 (.node .qualifiedName segments) (wordAt g first :: ts) := rfl
  cases ws with
  | nil =>
    have hmore := (Fails.seq_right (hword _) (fails_segments ht ts)).node .qualifiedName
    exact (Reads.alt_right (hmark _) (Reads.alt_right hmore ((hword _).node .name))).mono (by simp)
  | cons w ws =>
    have hall := ((hword _).seq (reads_segments w ws ht ts)).node .qualifiedName
    exact (Reads.alt_right (hmark _) hall.alt_left).mono (by simp)

end Segments

namespace Outline

open Segments

/-- The statement of that number, after others that the first token tells apart. -/
lemma reads_statement {l : Lexeme} {a : PhpRule} {us : List Tree} {ts' : List Token} {k : Nat}
    (hl : t.lexeme = l) (i : Nat) (hi : statementRules[i]? = some a)
    (h : (statementRules.take i).all (·.refuses grammar l.view 20) = true)
    (ha : Reads grammar k a (t :: ts) us ts') :
    Reads grammar (k + i + 22) statement (t :: ts) us ts' := by
  subst hl
  have hrule : Reads grammar _ (grammar .statement) (t :: ts) us ts' :=
    reads_oneOf hi t.lexeme.fits_view h ha
  exact hrule.ref.mono (by omega)

def useTree (g : List Char) (n : Segments) : Tree :=
  .node .useDeclaration [.leaf (wordAt g "use".toList), .node .useClause [n.nameTree [' ']],
    .leaf (markAt [] ';')]

def StartsImport (w : List Char) : Prop := IsNone ["function", "const"] w

lemma ends_semicolon : Ends (markAt [] ';') := rfl

lemma skips_importKind (hn : StartsImport n.first) (ts : List Token) :
    Reads grammar 5 (opt importKind) (n.tokens g ++ ts) [] (n.tokens g ++ ts) :=
  reads_opt_none (fails_oneKw hn _ _)

/-- The name is read to its end, so no backslash is left before a group. -/
lemma fails_useGroup (hn : StartsImport n.first) (ts : List Token) :
    Fails grammar (n.more.length + 20) useGroup (n.tokens g ++ markAt [] ';' :: ts) := by
  have hmark : Reads grammar 5 (opt (sym "\\")) (n.tokens g ++ markAt [] ';' :: ts) []
      (n.tokens g ++ markAt [] ';' :: ts) := rfl
  have hgroup : Fails grammar 5 (all [sym "\\",
      .node .useGroup (braces (commaList groupClause))]) (markAt [] ';' :: ts) := rfl
  have hname := Fails.seq_right (reads_namespaceName (g := g) (n := n) ends_semicolon) hgroup
  exact (Fails.seq_right (skips_importKind hn _) (.seq_right hmark hname)).mono (by omega)

lemma reads_useClause (hn : StartsImport n.first) (ts : List Token) :
    Reads grammar (n.more.length + 20) useClause (n.tokens g ++ markAt [] ';' :: ts)
      [.node .useClause [n.nameTree g]] (markAt [] ';' :: ts) := by
  have hend : Reads grammar 5 (opt aliasClause) (markAt [] ';' :: ts) []
      (markAt [] ';' :: ts) := rfl
  have hall := (skips_importKind hn _).seq ((reads_name (g := g) ends_semicolon).seq hend)
  exact (hall.node .useClause).mono (by omega)

lemma reads_use (hn : StartsImport n.first) (ts : List Token) :
    Reads grammar (n.more.length + 60) statement (importTokens g n ++ ts) [useTree g n] ts := by
  have hlist : Reads grammar 5 (.many (.seq (sym ",") useClause)) (markAt [] ';' :: ts) []
      (markAt [] ';' :: ts) := rfl
  have hclauses := Reads.alt_right (fails_useGroup (g := [' ']) hn ts)
    ((reads_useClause hn ts).seq hlist)
  have hstop : Reads grammar 5 terminator (markAt [] ';' :: ts) [.leaf (markAt [] ';')] ts := rfl
  have huse (us : List Token) : Reads grammar 5 (kw "use") (wordAt g "use".toList :: us)
      [.leaf (wordAt g "use".toList)] us := rfl
  have hall : Reads grammar _ useDeclaration _ [useTree g n] ts :=
    ((huse _).seq (hclauses.seq hstop)).node .useDeclaration
  have hstatement := reads_statement (l := ⟨.word, "use".toList, false⟩) rfl 1 rfl
    (by decide +kernel) hall
  have htokens : importTokens g n ++ ts = wordAt g "use".toList ::
      (n.tokens [' '] ++ markAt [] ';' :: ts) := by simp [importTokens]
  rw [htokens]
  exact hstatement.mono (by omega)

def spaceTree (n : Segments) : Tree :=
  .node .namespaceDeclaration [.leaf (wordAt ['\n', '\n'] "namespace".toList),
    n.namespaceTree [' '], .leaf (markAt [] ';')]

lemma reads_space (n : Segments) (ts : List Token) :
    Reads grammar (n.more.length + 60) statement (namespaceTokens n ++ ts) [spaceTree n] ts := by
  have hstop : Reads grammar 5 terminator (markAt [] ';' :: ts) [.leaf (markAt [] ';')] ts := rfl
  have hword (us : List Token) : Reads grammar 5 (kw "namespace")
      (wordAt ['\n', '\n'] "namespace".toList :: us)
      [.leaf (wordAt ['\n', '\n'] "namespace".toList)] us := rfl
  have hname := (reads_namespaceName (n := n) (g := [' ']) ends_semicolon).seq hstop
  have hall : Reads grammar _ namespaceDeclaration _ [spaceTree n] ts :=
    ((hword _).seq hname.alt_left).node .namespaceDeclaration
  have hstatement := reads_statement (l := ⟨.word, "namespace".toList, false⟩) rfl 2 rfl
    (by decide +kernel) hall
  have htokens : namespaceTokens n ++ ts = wordAt ['\n', '\n'] "namespace".toList ::
      (n.tokens [' '] ++ markAt [] ';' :: ts) := by simp [namespaceTokens]
  rw [htokens]
  exact hstatement.mono (by omega)

def declareTree (t : Token) : Tree :=
  .node .statement [.leaf t, .leaf (markAt [] '('), .leaf (wordAt [] "strict_types".toList),
    .leaf ⟨[], .symbol, ['='], false⟩, .node .number [.leaf ⟨[], .number, ['1'], false⟩],
    .leaf (markAt [] ')'), .node .statement [.leaf (markAt [] ';')]]

-- The rules look at no token after the semicolon, so running the grammar meets known tokens only.
set_option maxRecDepth 4000 in
lemma reads_declare (g : List Char) (ts : List Token) :
    Reads grammar 60 statement (wordAt g "declare".toList :: declareTokens ++ ts)
      [declareTree (wordAt g "declare".toList)] ts := rfl

/-! ### Parameters -/

/-- A word that may stand as a type after the words before a parameter. -/
def StandsAsType (w : List Char) : Prop :=
  IsNone ["public", "protected", "private", "static", "final", "abstract", "readonly", "var"] w

/-- The tree of a type that is a single word. -/
def typeTree (w : List Char) : Tree :=
  if primitives.any (·.toList == w) then .node .primitiveType [.leaf (wordAt [' '] w)]
  else .node .namedType [.node .name [.leaf (wordAt [' '] w)]]

lemma reads_className (g w : List Char) (ht : Ends t) (ts : List Token) : Reads grammar 20 className
    (wordAt g w :: t :: ts) [.node .name [.leaf (wordAt g w)]] (t :: ts) := by
  have hname : Reads grammar 10 (nameOf (.kind .word)) (wordAt g w :: t :: ts)
      [.node .name [.leaf (wordAt g w)]] (t :: ts) := reads_name (n := ⟨w, []⟩) ht
  have hrelative : Fails grammar 6 (.seq (kw "namespace") segments) (wordAt g w :: t :: ts) := by
    by_cases hw : (Pattern.keyword "namespace").accepts (wordAt g w).lexeme = true
    · exact (Fails.seq_right (reads_token hw) (fails_segments ht ts)).mono (by omega)
    · have hword : Fails grammar 1 (kw "namespace") (wordAt g w :: t :: ts) := if_neg hw
      exact hword.seq_left.mono (by omega)
  exact (Reads.alt_right (hrelative.node .relativeName) hname).mono (by omega)

lemma reads_simpleType (w v : List Char) (ts : List Token) :
    Reads grammar 30 simpleType (wordAt [' '] w :: variableAt [' '] v :: ts) [typeTree w]
      (variableAt [' '] v :: ts) := by
  have hany : (primitives.map Pattern.exactly).any (·.accepts (wordAt [' '] w).lexeme) =
      primitives.any (·.toList == w) := by
    rw [List.any_map]
    refine congrArg (primitives.any ·) (funext fun p => ?_)
    simp [Pattern.accepts, wordAt, eq_comm]
  have hrule : primitives.map (fun p => (.token (.exactly p) : PhpRule)) =
      (primitives.map Pattern.exactly).map .token := by rw [List.map_map]; rfl
  by_cases hw : primitives.any (·.toList == w) = true
  · have hone : Reads grammar _ (oneOf (primitives.map (.token <| .exactly ·))) _ [_] _ :=
      hrule ▸ reads_oneOf_tokens (hany.trans hw) (variableAt [' '] v :: ts)
    rw [typeTree, if_pos hw]
    exact ((hone.node .primitiveType).alt_left).mono (by decide)
  · have hnone : Fails grammar _ (oneOf (primitives.map (.token <| .exactly ·))) _ :=
      hrule ▸ fails_oneOf_tokens (hany.trans (by simpa using hw)) (variableAt [' '] v :: ts)
    have hclass := reads_className [' '] w (t := variableAt [' '] v) rfl ts
    rw [typeTree, if_neg hw]
    exact (Reads.alt_right (hnone.node .primitiveType) (hclass.node .namedType)).mono (by decide)

lemma reads_type (w v : List Char) (ts : List Token) :
    Reads grammar 40 type (wordAt [' '] w :: variableAt [' '] v :: ts) [typeTree w]
      (variableAt [' '] v :: ts) := by
  have hoptional : Fails grammar 5 (.node .optionalType (.seq (sym "?") simpleType))
      (wordAt [' '] w :: variableAt [' '] v :: ts) := rfl
  have hmore : Reads grammar 10 (.many (.seq (oneSym ["|", "&"])
      (.alt simpleType (parens type)))) (variableAt [' '] v :: ts) []
      (variableAt [' '] v :: ts) := rfl
  have hone := ((reads_simpleType w v ts).alt_left (b := parens type)).seq hmore
  have hrule : Reads grammar _ (grammar .type) _ [typeTree w] _ :=
    Reads.alt_right hoptional (hone.several .compositeType)
  exact hrule.ref.mono (by omega)

def parameterTree (p : List Char × List Char) : Tree :=
  .node .parameter [.node .modifier [.leaf (wordAt parameterGap "public".toList)],
    .node .modifier [.leaf (wordAt [' '] "readonly".toList)], typeTree p.1,
    .node .variableName [.leaf (variableAt [' '] p.2)]]

def parameter : PhpRule :=
  .node .parameter (all [opt attributes, .many modifier, opt type, opt (sym "&"), opt (sym "..."),
    plainVariable, opt (.seq (sym "=") expression), opt (propertyHooks (parametersWith .empty))])

def FollowsParameter (ts : List Token) : Prop :=
  ∃ g ts', ts = markAt g ',' :: ts' ∨ ts = markAt g ')' :: ts'

lemma fails_modifier (hw : StandsAsType w) (ts : List Token) :
    Fails grammar 20 modifier (wordAt [' '] w :: ts) := by
  have hvisible : IsNone ["public", "protected", "private"] w := hw.mono (by decide)
  have hstatic : IsNone ["static"] w := hw.mono (by decide)
  have hother : IsNone ["final", "abstract", "readonly", "var"] w := hw.mono (by decide)
  exact (((fails_oneKw hvisible _ ts).seq_left.node .modifier).alt
    (((fails_oneKw hstatic _ ts).node .staticModifier).alt
      ((fails_oneKw hother _ ts).node .modifier))).mono (by decide)

lemma reads_parameter {p : List Char × List Char} (hp : StandsAsType p.1)
    (hts : FollowsParameter ts) :
    Reads grammar 60 parameter (parameterTokens p ++ ts) [parameterTree p] ts := by
  obtain ⟨w, v⟩ := p
  have hattributes : Reads grammar 20 (opt attributes) (parameterTokens (w, v) ++ ts) []
      (parameterTokens (w, v) ++ ts) := rfl
  have hpublic : Reads grammar 20 modifier (parameterTokens (w, v) ++ ts)
      [.node .modifier [.leaf (wordAt parameterGap "public".toList)]]
      (wordAt [' '] "readonly".toList :: wordAt [' '] w :: variableAt [' '] v :: ts) := rfl
  have hreadonly : Reads grammar 20 modifier
      (wordAt [' '] "readonly".toList :: wordAt [' '] w :: variableAt [' '] v :: ts)
      [.node .modifier [.leaf (wordAt [' '] "readonly".toList)]]
      (wordAt [' '] w :: variableAt [' '] v :: ts) := rfl
  have hmodifiers := hpublic.many_cons (hreadonly.many_cons
    (reads_many_nil (fails_modifier hp (variableAt [' '] v :: ts))))
  have htype := (reads_type w v ts).opt
  have hrest : Reads grammar 20 (all [opt (sym "&"), opt (sym "..."),
      plainVariable, opt (.seq (sym "=") expression),
      opt (propertyHooks (parametersWith .empty))]) (variableAt [' '] v :: ts)
      [.node .variableName [.leaf (variableAt [' '] v)]] ts := by
    obtain ⟨g, ts', rfl | rfl⟩ := hts <;> rfl
  exact ((hattributes.seq (hmodifiers.seq (htype.seq hrest))).node .parameter).mono (by decide)

def parameterTrees : List (List Char × List Char) → List Tree
  | [] => []
  | p :: ps => parameterTree p :: ps.flatMap fun p => [.leaf (markAt [] ','), parameterTree p]

lemma reads_parameters {ps : List (List Char × List Char)} (hp : ∀ p ∈ ps, StandsAsType p.1)
    (g : List Char) (ts : List Token) : Reads grammar (ps.length + 70) (trailingList parameter)
      (parametersTokens ps ++ markAt g ')' :: ts) (parameterTrees ps) (markAt g ')' :: ts) := by
  have hcomma : Reads grammar 5 (opt (sym ",")) (markAt g ')' :: ts) []
      (markAt g ')' :: ts) := rfl
  cases ps with
  | nil =>
    have hnone : Fails grammar 40 parameter (markAt g ')' :: ts) := rfl
    have hlist : Fails grammar _ (commaList parameter) (markAt g ')' :: ts) := hnone.seq_left
    exact ((reads_opt_none hlist).seq hcomma).mono (by omega)
  | cons p ps =>
    have hfollows : ∀ q ∈ ps, ∀ us, FollowsParameter (nextParameterTokens q ++ us) :=
      fun q _ us => ⟨[], _, .inl rfl⟩
    have hclose : FollowsParameter (markAt g ')' :: ts) := ⟨g, ts, .inr rfl⟩
    have hnext : ∀ q ∈ ps, ∀ us, FollowsParameter us →
        Reads grammar 61 (.seq (sym ",") parameter) (nextParameterTokens q ++ us)
          [.leaf (markAt [] ','), parameterTree q] us := by
      intro q hq us hus
      have hmark : Reads grammar 1 (sym ",") (nextParameterTokens q ++ us)
          [.leaf (markAt [] ',')] (parameterTokens q ++ us) := rfl
      exact hmark.seq (reads_parameter (hp q (by simp [hq])) hus)
    have hend : Fails grammar 61 (.seq (sym ",") parameter) (markAt g ')' :: ts) := rfl
    have hmore := reads_many FollowsParameter hfollows hnext hclose hend
    have hfirst := reads_parameter (hp p (by simp)) (follows_flatMap hfollows hclose)
    have hall := ((hfirst.seq hmore).opt).seq hcomma
    rw [List.append_nil] at hall
    rw [parametersTokens, List.append_assoc]
    exact hall.mono (by simp only [List.length_cons]; omega)

/-! ### The class -/

def parametersTree (ps : List (List Char × List Char)) : Tree :=
  .node .parameters
    (.leaf (markAt [] '(') :: parameterTrees ps ++ [.leaf (markAt (closingGap ps) ')')])

def methodTree (ps : List (List Char × List Char)) : Tree :=
  .node .methodDeclaration [.node .modifier [.leaf (wordAt "\n    ".toList "public".toList)],
    .leaf (wordAt [' '] "function".toList), .node .name [.leaf (wordAt [' '] "__construct".toList)],
    parametersTree ps,
    .node .block [.leaf (markAt [' '] '\x7b'), .leaf (markAt "\n    ".toList '\x7d')]]

lemma reads_header {ps : List (List Char × List Char)} (hp : ∀ p ∈ ps, StandsAsType p.1)
    (ts : List Token) : Reads grammar (ps.length + 90) functionHeader
      (wordAt [' '] "function".toList :: wordAt [' '] "__construct".toList :: markAt [] '(' ::
        (parametersTokens ps ++ markAt (closingGap ps) ')' :: markAt [' '] '\x7b' :: ts))
      [.leaf (wordAt [' '] "function".toList),
        .node .name [.leaf (wordAt [' '] "__construct".toList)], parametersTree ps]
      (markAt [' '] '\x7b' :: ts) := by
  have hword (us : List Token) : Reads grammar 10 (kw "function")
      (wordAt [' '] "function".toList :: us) [.leaf (wordAt [' '] "function".toList)] us := rfl
  have hmark (us : List Token) : Reads grammar 10 (opt (sym "&"))
      (wordAt [' '] "__construct".toList :: us) [] (wordAt [' '] "__construct".toList :: us) := rfl
  have hname (us : List Token) : Reads grammar 10 label (wordAt [' '] "__construct".toList :: us)
      [.node .name [.leaf (wordAt [' '] "__construct".toList)]] us := rfl
  have hopen (us : List Token) : Reads grammar 10 (sym "(") (markAt [] '(' :: us)
      [.leaf (markAt [] '(')] us := rfl
  have hclose (us : List Token) : Reads grammar 10 (sym ")") (markAt (closingGap ps) ')' :: us)
      [.leaf (markAt (closingGap ps) ')')] us := rfl
  have hparameters : Reads grammar _ parameters _ [parametersTree ps] (markAt [' '] '\x7b' :: ts) :=
    ((hopen _).seq ((reads_parameters hp (closingGap ps) _).seq (hclose _))).node .parameters
  have hreturn : Reads grammar 10 (opt returnType) (markAt [' '] '\x7b' :: ts) []
      (markAt [' '] '\x7b' :: ts) := rfl
  have hall := (hword _).seq ((hmark _).seq ((hname _).seq (hparameters.seq hreturn)))
  exact hall.mono (by omega)

set_option maxRecDepth 4000 in
lemma reads_method {ps : List (List Char × List Char)} (hp : ∀ p ∈ ps, StandsAsType p.1)
    (ts : List Token) :
    Reads grammar (ps.length + 100) (.ref .member) (methodTokens ps ++ ts) [methodTree ps] ts := by
  have hattributes (us : List Token) : Reads grammar 20 (opt attributes)
      (wordAt "\n    ".toList "public".toList :: us) []
      (wordAt "\n    ".toList "public".toList :: us) := rfl
  have hmodifiers (us : List Token) : Reads grammar 20 (.many modifier)
      (wordAt "\n    ".toList "public".toList :: wordAt [' '] "function".toList :: us)
      [.node .modifier [.leaf (wordAt "\n    ".toList "public".toList)]]
      (wordAt [' '] "function".toList :: us) := rfl
  have hbody : Reads grammar 60 (.alt block terminator)
      (markAt [' '] '\x7b' :: markAt "\n    ".toList '\x7d' :: ts)
      [.node .block [.leaf (markAt [' '] '\x7b'), .leaf (markAt "\n    ".toList '\x7d')]] ts := rfl
  have hheader := (reads_header hp _).seq hbody
  have hmethod : Reads grammar _ methodDeclaration _ [methodTree ps] ts :=
    ((hattributes _).seq ((hmodifiers _).seq hheader)).node .methodDeclaration
  have hindex : memberRules[1]? = some methodDeclaration := rfl
  have hrule : Reads grammar _ (grammar .member) _ [methodTree ps] ts :=
    reads_oneOf hindex (Lexeme.fits_view ⟨.word, "public".toList, false⟩) (j := 20)
      (by decide +kernel) hmethod
  have htokens : methodTokens ps ++ ts = wordAt "\n    ".toList "public".toList ::
      wordAt [' '] "function".toList :: wordAt [' '] "__construct".toList :: markAt [] '(' ::
      (parametersTokens ps ++ markAt (closingGap ps) ')' :: markAt [' '] '\x7b' ::
        markAt "\n    ".toList '\x7d' :: ts) := by simp [methodTokens]
  rw [htokens]
  exact hrule.ref.mono (by omega)

def classTree (o : Outline) : Tree :=
  .node .classDeclaration [.leaf (wordAt ['\n', '\n'] "final".toList),
    .leaf (wordAt [' '] "class".toList), .node .name [.leaf (wordAt [' '] o.name)],
    .node .baseClause [.leaf (wordAt [' '] "extends".toList),
      .node .name [.leaf (wordAt [' '] o.base)]],
    .node .members [.leaf (markAt ['\n'] '\x7b'), methodTree o.properties,
      .leaf (markAt ['\n'] '\x7d')]]

set_option maxRecDepth 4000 in
lemma reads_members {ps : List (List Char × List Char)} (hp : ∀ p ∈ ps, StandsAsType p.1)
    (ts : List Token) : Reads grammar (ps.length + 110) members
      (markAt ['\n'] '\x7b' :: (methodTokens ps ++ markAt ['\n'] '\x7d' :: ts))
      [.node .members [.leaf (markAt ['\n'] '\x7b'), methodTree ps, .leaf (markAt ['\n'] '\x7d')]]
      ts := by
  have hopen (us : List Token) : Reads grammar 10 (sym "\x7b") (markAt ['\n'] '\x7b' :: us)
      [.leaf (markAt ['\n'] '\x7b')] us := rfl
  have hclose : Reads grammar 10 (sym "\x7d") (markAt ['\n'] '\x7d' :: ts)
      [.leaf (markAt ['\n'] '\x7d')] ts := rfl
  have hend : Fails grammar 60 (.ref .member) (markAt ['\n'] '\x7d' :: ts) := rfl
  have hmany := (reads_method hp _).many_cons (reads_many_nil hend)
  exact (((hopen _).seq (hmany.seq hclose)).node .members).mono (by omega)

lemma reads_class {o : Outline} (hp : ∀ p ∈ o.properties, StandsAsType p.1) (ts : List Token) :
    Reads grammar (o.properties.length + 150) statement (o.classTokens ++ ts) [o.classTree] ts := by
  have hattributes (us : List Token) : Reads grammar 20 (opt attributes)
      (wordAt ['\n', '\n'] "final".toList :: us) []
      (wordAt ['\n', '\n'] "final".toList :: us) := rfl
  have hmodifiers (us : List Token) : Reads grammar 20
      (.many (oneKw ["abstract", "final", "readonly"]))
      (wordAt ['\n', '\n'] "final".toList :: wordAt [' '] "class".toList :: us)
      [.leaf (wordAt ['\n', '\n'] "final".toList)] (wordAt [' '] "class".toList :: us) := rfl
  have hword (us : List Token) : Reads grammar 10 (kw "class")
      (wordAt [' '] "class".toList :: us) [.leaf (wordAt [' '] "class".toList)] us := rfl
  have hname (us : List Token) : Reads grammar 10 label (wordAt [' '] o.name :: us)
      [.node .name [.leaf (wordAt [' '] o.name)]] us := rfl
  have hextends (us : List Token) : Reads grammar 10 (kw "extends")
      (wordAt [' '] "extends".toList :: us) [.leaf (wordAt [' '] "extends".toList)] us := rfl
  have hsingle (us : List Token) : Reads grammar 10 (.many (.seq (sym ",") className))
      (markAt ['\n'] '\x7b' :: us) [] (markAt ['\n'] '\x7b' :: us) := rfl
  have hbase (us : List Token) := (((hextends _).seq ((reads_className [' '] o.base
    (t := markAt ['\n'] '\x7b') rfl us).seq (hsingle us))).node .baseClause).opt
  have hinterface (us : List Token) : Reads grammar 10 (opt interfaceClause)
      (markAt ['\n'] '\x7b' :: us) [] (markAt ['\n'] '\x7b' :: us) := rfl
  have hclass : Reads grammar _ classDeclaration _ [o.classTree] ts :=
    ((hattributes _).seq ((hmodifiers _).seq ((hword _).seq ((hname _).seq ((hbase _).seq
      ((hinterface _).seq (reads_members hp ts))))))).node .classDeclaration
  have hstatement := reads_statement (l := ⟨.word, "final".toList, false⟩) rfl 3 rfl
    (by decide +kernel) hclass
  have htokens : o.classTokens ++ ts = wordAt ['\n', '\n'] "final".toList ::
      wordAt [' '] "class".toList :: wordAt [' '] o.name :: wordAt [' '] "extends".toList ::
      wordAt [' '] o.base :: markAt ['\n'] '\x7b' ::
      (methodTokens o.properties ++ markAt ['\n'] '\x7d' :: ts) := by simp [classTokens]
  rw [htokens]
  exact hstatement.mono (by omega)

/-! ### The whole source -/

/-- Words are such that no rule takes them for keywords. -/
structure Unreserved (o : Outline) : Prop where
  imports : ∀ n ∈ o.firstImport :: o.moreImports, StartsImport n.first
  properties : ∀ p ∈ o.properties, StandsAsType p.1

/-- The statements of a class with their tokens, the first token of all being given. -/
def statements (o : Outline) (t : Token) : List (List Token × Tree) :=
  (t :: declareTokens, declareTree t) :: (namespaceTokens o.space, spaceTree o.space) ::
    (importTokens ['\n', '\n'] o.firstImport, useTree ['\n', '\n'] o.firstImport) ::
    (o.moreImports.map fun n => (importTokens ['\n'] n, useTree ['\n'] n)) ++
    [(o.classTokens, o.classTree)]

def tree (o : Outline) (t : Token) : Tree :=
  .node .program ((o.statements t).map Prod.snd ++ [.leaf stopToken])

lemma flatMap_statements (o : Outline) (t : Token) :
    (o.statements t).flatMap Prod.fst ++ [stopToken] = t :: o.restTokens := by
  simp [statements, restTokens, List.flatMap_map]

lemma length_statements (o : Outline) (t : Token) :
    ((o.statements t).flatMap Prod.fst).length = o.restTokens.length := by
  have h := congrArg List.length (flatMap_statements o t)
  rw [List.length_append, List.length_singleton, List.length_cons] at h
  omega

lemma length_le_flatMap {α β : Type} {f : α → List β} {l : List α} (h : ∀ a ∈ l, f a ≠ []) :
    l.length ≤ (l.flatMap f).length := by
  induction l with
  | nil => simp
  | cons a l ih =>
    have hfirst := List.length_pos_iff.mpr (h a (by simp))
    have ih := ih fun b hb => h b (by simp [hb])
    rw [List.flatMap_cons, List.length_append, List.length_cons]
    omega

lemma length_more_le (g : List Char) (n : Segments) : n.more.length ≤ (n.tokens g).length := by
  have h := length_le_flatMap (f := moreTokens) (l := n.more) (by simp [moreTokens])
  rw [Segments.tokens, List.length_cons]
  omega

lemma length_properties_le (ps : List (List Char × List Char)) :
    ps.length ≤ (parametersTokens ps).length := by
  cases ps with
  | nil => simp
  | cons p ps =>
    have h := length_le_flatMap (f := nextParameterTokens) (l := ps) (by simp [nextParameterTokens])
    rw [parametersTokens, List.length_append, parameterTokens]
    simp only [List.length_cons]
    omega

/-- Each statement is read at a depth that its tokens bound. -/
lemma reads_of_mem_statements {o : Outline} (hu : o.Unreserved) {s : List Token × Tree}
    (hs : s ∈ o.statements (wordAt g "declare".toList)) (ts : List Token) :
    Reads grammar (s.1.length + 150) statement (s.1 ++ ts) [s.2] ts := by
  simp only [statements, List.mem_append, List.mem_cons, List.mem_map, List.not_mem_nil,
    or_false] at hs
  rcases hs with (rfl | rfl | rfl | ⟨n, hn, rfl⟩) | rfl
  · exact (reads_declare g ts).mono (by omega)
  · have hmore := length_more_le [' '] o.space
    refine (reads_space o.space ts).mono ?_
    simp only [namespaceTokens, List.length_append, List.length_cons]
    omega
  · have hmore := length_more_le [' '] o.firstImport
    refine (reads_use (hu.imports _ (by simp)) ts).mono ?_
    simp only [importTokens, List.length_append, List.length_cons]
    omega
  · have hmore := length_more_le [' '] n
    refine (reads_use (hu.imports n (by simp [hn])) ts).mono ?_
    simp only [importTokens, List.length_append, List.length_cons]
    omega
  · have hparameters := length_properties_le o.properties
    refine (reads_class hu.properties ts).mono ?_
    simp only [classTokens, methodTokens, List.length_append, List.length_cons]
    omega

lemma ne_nil_of_mem_statements {o : Outline} {s : List Token × Tree} (hs : s ∈ o.statements t) :
    s.1 ≠ [] := by
  simp only [statements, List.mem_append, List.mem_cons, List.mem_map, List.not_mem_nil,
    or_false] at hs
  rcases hs with (rfl | rfl | rfl | ⟨n, hn, rfl⟩) | rfl <;>
    simp [namespaceTokens, importTokens, classTokens]

lemma reads_program {o : Outline} (hu : o.Unreserved) (g : List Char) :
    Reads grammar (2 * (o.restTokens.length + 1) + 160) program
      (wordAt g "declare".toList :: o.restTokens) [o.tree (wordAt g "declare".toList)] [] := by
  have hread : ∀ s ∈ o.statements (wordAt g "declare".toList), ∀ ts, True →
      Reads grammar (o.restTokens.length + 151) statement (s.1 ++ ts) [s.2] ts := by
    intro s hs ts _
    have hlength := (List.sublist_flatten_of_mem (List.mem_map_of_mem (f := Prod.fst) hs)).length_le
    rw [← List.flatMap_def, length_statements] at hlength
    exact (reads_of_mem_statements hu hs ts).mono (by omega)
  have hend : Fails grammar 60 statement [stopToken] := rfl
  have hmany := reads_many (fun _ => True) (fun _ _ _ => trivial) hread trivial
    (hend.mono (by omega))
  have hstop : Reads grammar 1 (kind .stop) [stopToken] [.leaf stopToken] [] := rfl
  have hall := (hmany.seq hstop).node .program
  have hcount := length_le_flatMap (f := Prod.fst) (l := o.statements (wordAt g "declare".toList))
    fun s hs => ne_nil_of_mem_statements hs
  rw [length_statements] at hcount
  rw [flatMap_statements, ← List.map_eq_flatMap] at hall
  exact hall.mono (by omega)

/-- **The text of an outline is a source without syntax errors.** -/
lemma parse_text {o : Outline} (hs : o.Spelled) (hu : o.Unreserved) :
    parse (String.ofList o.text) =
      some (o.tree (wordAt ("<?php".toList ++ ['\n', '\n']) "declare".toList)) := by
  have hread := (reads_program hu ("<?php".toList ++ ['\n', '\n'])).mono
    (j := stepsPerToken * (o.restTokens.length + 1 + 1)) (by rw [stepsPerToken]; omega)
  rw [parse, tokens_text hs, parseTokens, List.length_cons, hread]

end Outline

end EloquentEntity

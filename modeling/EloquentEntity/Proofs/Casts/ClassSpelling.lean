import EloquentEntity.Proofs.Casts.SourcePath
import EloquentEntity.Proofs.Imports.Binding
import EloquentEntity.Proofs.Imports.NoClass
import EloquentEntity.Proofs.Syntax.Operand
import EloquentEntity.Proofs.Syntax.Quoting
import EloquentEntity.Proofs.Text.Ascii

/-!
The ways in which a model can write the class of a cast.

A class is written out before `::class`, or named there by what an import calls it, or it stands in
a string. What other imports there are makes no difference: no import has a name with a backslash in
it, and of the imports under one name the last one counts. So the descriptor is the same, and with
it the type of the column.
-/

namespace EloquentEntity

open Syntax Syntax.Tree

/-! ### Letter case -/

namespace Text

/-- A word is a keyword, so it is ASCII text. -/
lemma toNat_lt_of_asciiLower {s w : List Char} (h : asciiLower s = w)
    (hw : ∀ c ∈ w, c.toNat < 128) : ∀ c ∈ s, c.toNat < 128 := by
  intro c hc
  by_contra hhigh
  have hsame : c.toLower = c := toLower_of_not_isUpper fun hupper =>
    hhigh (Nat.lt_of_le_of_lt (isUpper_iff.mp hupper).2 (by decide))
  have hlow := hw c.toLower (h ▸ List.mem_map_of_mem hc)
  exact hhigh (hsame ▸ hlow)

lemma lower_of_keyword {t : Token} {w : String} (h : (Pattern.keyword w).accepts t.lexeme = true)
    (hw : w.toList.all (·.toNat < 128) = true) : lower t.text = w.toList := by
  rw [Pattern.accepts, Bool.and_eq_true, beq_iff_eq, beq_iff_eq] at h
  have hascii : ∀ c ∈ w.toList, c.toNat < 128 := by simpa using hw
  exact (lower_eq_asciiLower (toNat_lt_of_asciiLower h.2 hascii)).trans h.2

end Text

/-! ### Strings -/

namespace Syntax.Literal

def escaped (s : List Char) : List Char := s.flatMap fun c => if c == '\\' then ['\\', '\\'] else [c]

lemma escaped_eq (s : List Char) : escaped s = escapeWith ['\\'] s :=
  List.flatMap_congr fun c _ => by
    by_cases hc : c = '\\'
    · simp [hc]
    · simp [hc]

lemma unescape_escaped {meaning : Char → Option Char} (h : meaning '\\' = some '\\')
    (s : List Char) : unescape meaning (escaped s) = s := by
  rw [escaped_eq]
  exact unescape_escapeWith (by simp) (by simpa using h) s

def quote? : TokenKind → Option Char
  | .singleQuoted => some '\''
  | .doubleQuoted => some '"'
  | _ => none

lemma value?_escaped {t : Token} {q : Char} (hq : quote? t.kind = some q) {s : List Char}
    (ht : t.text = q :: escaped s ++ [q]) :
    ∃ k, (t.kind, k) ∈ quotedKinds ∧ value? (.node k [.leaf t]) = some (String.ofList s) := by
  have htext (k : Kind) : (Syntax.Tree.node k [.leaf t]).text = q :: escaped s ++ [q] := by
    rw [← ht, show [Syntax.Tree.leaf t] = leaves [t] from rfl, text_leaves]
    simp [joinTokens]
  have hinner (hmark : withoutMark (q :: escaped s ++ [q]) = q :: escaped s ++ [q]) (k : Kind) :
      inner (withoutMark (Syntax.Tree.node k [.leaf t]).text) = escaped s := by
    rw [htext, hmark, inner_quoted]
  cases hk : t.kind with
  | singleQuoted =>
    obtain rfl : '\'' = q := by simpa [hk, quote?] using hq
    refine ⟨.singleQuoted, by simp [quotedKinds], congrArg (some <| String.ofList ·) ?_⟩
    rw [hinner rfl]
    exact unescape_escaped (rfl : singleEscape '\\' = some '\\') s
  | doubleQuoted =>
    obtain rfl : '"' = q := by simpa [hk, quote?] using hq
    refine ⟨.doubleQuoted, by simp [quotedKinds], congrArg (some <| String.ofList ·) ?_⟩
    rw [hinner rfl]
    exact unescape_escaped (rfl : doubleEscape '\\' = some '\\') s
  | _ => simp [hk, quote?] at hq

end Syntax.Literal

/-! ### Names -/

lemma ClassName.resolve_bare (name : String) (imports : Imports) :
    resolve (bare name) imports = resolve name imports := by
  rw [resolve, resolve, bare_bare, qualify, qualify, bare_bare]

lemma toNat_lt_of_isQualifiedName {name : String} (h : IsQualifiedName name) :
    ∀ c ∈ name.toList, c.toNat < 128 := by
  intro c hc
  have hwords := EntityDefinition.isSegment_of_mem_words h
  rw [← Segments.text_ofName name.toList, Segments.text, List.mem_append, List.mem_flatMap] at hc
  obtain hc | ⟨w, hw, hc⟩ := hc
  · exact (hwords _ List.mem_cons_self).1.2 c hc
  · obtain rfl | hc := List.mem_cons.mp hc
    · decide
    · exact (hwords w (List.mem_cons_of_mem _ hw)).1.2 c hc

/-! ### Items of an array -/

namespace Syntax

open Rules Imports

variable {source : String} {root item key value : Tree}

/-- An item of two expressions has an arrow, and the second is a value. -/
lemma reads_value (h : parse source = some root) (hm : item ∈ root.preorder)
    (hk : item.is .arrayElement = true) (hnodes : item.nodes = [key, value]) :
    item.hasToken (.symbol "=>") = true ∧ ∃ n rest,
      Reads grammar n (.alt byReference expression) (value.tokens ++ rest) [value] rest := by
  obtain ⟨cs, rfl⟩ : ∃ cs, item = .node .arrayElement cs := by
    cases item with
    | leaf t => cases hk
    | node k cs => exact ⟨cs, by rw [show k = .arrayElement by simpa [is, kind?] using hk]⟩
  obtain ⟨b, hb, _, ts, rest, hread⟩ := reads_of_mem h hm rfl
  obtain rfl := List.mem_singleton.mp hb
  have hlength : 2 ≤ cs.length := by
    have := List.length_filter_le (·.kind?.isSome) cs
    rwa [show cs.filter (·.kind?.isSome) = [key, value] from hnodes] at this
  -- A spread and a reference make one node only, not two.
  obtain ⟨_, hspread | ⟨-, hread⟩⟩ := hread.alt_cases
  · obtain ⟨_, _, -, rfl⟩ := hspread.node_cases
    simp at hlength
  obtain ⟨_, href | ⟨-, hread⟩⟩ := hread.alt_cases
  · obtain ⟨_, _, -, rfl⟩ := href.node_cases
    simp at hlength
  obtain ⟨_, us, ts', vs, hfirst, hmore, rfl⟩ := hread.seq_cases
  obtain ⟨_, hfirst⟩ := hfirst.ref_cases
  obtain ⟨_, _, -, rfl⟩ := hfirst.several_cases
  obtain ⟨_, hmore⟩ | ⟨rfl, -⟩ := hmore.opt_cases
  · obtain ⟨m, ms, ts'', vs, hmark, hvalue, rfl⟩ := hmore.seq_cases
    obtain ⟨arrow, -, rfl, harrow⟩ := hmark.token_cases
    obtain ⟨v, rfl⟩ : ∃ v, vs = [v] := by
      obtain ⟨_, href | ⟨-, hexpr⟩⟩ := hvalue.alt_cases
      · obtain ⟨_, _, -, rfl⟩ := href.node_cases
        exact ⟨_, rfl⟩
      · obtain ⟨_, hexpr⟩ := hexpr.ref_cases
        obtain ⟨_, _, -, rfl⟩ := hexpr.several_cases
        exact ⟨_, rfl⟩
    -- Were one of the two a single token, only one node would be left.
    have hlast {u : Tree} (h : [u, .leaf arrow, v].filter (·.kind?.isSome) = [key, value]) :
        v = value := by
      cases u <;> cases v <;> simp_all [kind?]
    obtain rfl := hlast hnodes
    refine ⟨by simp [hasToken, children, harrow], m, rest, ?_⟩
    rwa [tokens_of_reads (by decide +kernel) hvalue, tokensAll, tokensAll, List.append_nil] at hvalue
  · simp at hlength

end Syntax

/-! ### The last import of a name -/

namespace Imports

variable {source name short : String} {root d : Tree}

/-- A declaration without the word after `use` has none anywhere but in clauses. -/
lemma isNoClass_of_hasKeyword (h : parse source = some root) (hd : d ∈ root.preorder)
    (hk : d.is .useDeclaration = true) (hkey : hasKeyword d = false) : isNoClass d = false := by
  obtain ⟨use, us, term, rfl, huse, hus, hterm⟩ := (isDeclaration_of_parse h hd hk).parts
  obtain hgroup | hrow := hus
  · rw [hgroup.isNoClass_eq hterm huse, hkey]
  · exact hrow.isNoClass_eq hterm huse

/-- The last clause that enters a short name imports this class. -/
def LastBinds (root : Tree) (name short : String) : Prop :=
  ∃ front d c back, allClauses root = front ++ (d, c) :: back ∧ hasKeyword d = false ∧
    isNoClass c = false ∧ Binds name short d c ∧
    ∀ y ∈ back, (clauseImport? y.1 y.2).map Prod.fst ≠ some short

lemma LastBinds.get?_collect (h : LastBinds root name short) (hparse : parse source = some root)
    (hq : IsQualifiedName name) (hs : IsAsciiLabel short.toList) :
    (collect root).get? short = some name := by
  obtain ⟨front, d, c, back, hall, hkey, hc, hbinds, hlast⟩ := h
  obtain ⟨hd, hk, -⟩ := mem_allClauses (x := (d, c)) (by rw [hall]; simp)
  have hentry := hbinds.clauseImport?_eq hq hs (isNoClass_of_hasKeyword hparse hd hk hkey) hc
  refine get?_collect_of_last hall hentry fun y hy e he heq => hlast y hy ?_
  rw [Option.mem_def.mp he, Option.map_some, heq]

end Imports

/-! ### Spellings -/

namespace Casts

open Imports

variable {source name : String} {root value : Tree}

/-- The names that stand for a class by its place, which no import can give. -/
def placeNames : List String := ["self", "static", "parent"]

def classMark : List Pattern := [.symbol "::", .keyword "class"]

/-- The value of a cast is a class in one of its spellings. -/
inductive ClassSpelling (root : Tree) (name : String) (value : Tree) : Prop
  /-- Written out, with a backslash in front or not. -/
  | qualified {lead} : value.Spells (namePatterns lead (.ofName name.toList) ++ classMark) →
      ClassSpelling root name value
  /-- Under the name that an import gives it. -/
  | imported {short} : IsSegment short.toList → IsNone placeNames short.toList →
      LastBinds root name short →
      value.Spells (namePatterns false (.ofName short.toList) ++ classMark) →
      ClassSpelling root name value
  /-- In a string, with a backslash in front. -/
  | quoted {t q} : value.tokens = [t] → Literal.quote? t.kind = some q →
      t.text = q :: Literal.escaped ('\\' :: name.toList) ++ [q] → ClassSpelling root name value

lemma exists_append_of_fit {ts : List Token} {ps qs : List Pattern} (h : Fit ts (ps ++ qs)) :
    ∃ row more, ts = row ++ more ∧ Fit row ps ∧ Fit more qs :=
  ⟨_, _, (List.take_append_drop _ ts).symm, List.forall₂_take_append ts ps qs h,
    List.forall₂_drop_append ts ps qs h⟩

/-- A name with `::class` stands for what the name stands for. -/
lemma classReference?_eq_some {k : Kind} {row : List Token} {c w : Token} {written : String}
    (hw : (Pattern.keyword "class").accepts w.lexeme = true)
    (htext : (node k (leaves row)).nameText = written) (hne : written ≠ "")
    (hascii : ∀ c ∈ written.toList, c.toNat < 128) (hself : IsNone placeNames written.toList)
    (imports : Imports) :
    classReference? (node .classConstant [node k (leaves row), .leaf c, node .name [.leaf w]])
      imports = some (ClassName.resolve written imports) := by
  have hclass : Text.lower (node .name [.leaf w]).text = "class".toList := by
    have hword : (node .name [.leaf w]).text = w.text := List.append_nil _
    rw [hword, Text.lower_of_keyword hw (by decide)]
  have hplace : ["self", "static", "parent"].any (·.toList == Text.lower written.toList) = false := by
    rw [Text.lower_eq_asciiLower hascii, List.any_eq_false]
    exact fun s hs => by simpa using (hself s hs).symm
  have hnodes : (node .classConstant [node k (leaves row), .leaf c, node .name [.leaf w]]).nodes =
      [node k (leaves row), node .name [.leaf w]] := rfl
  rw [classReference?, hnodes]
  simp [is, kind?, hclass, htext, hne, hplace]

/-- A text with a backslash in it is none of these names. -/
lemma isNone_of_mem {w : List Char} (h : '\\' ∈ w) : IsNone placeNames w := by
  intro s hs heq
  have hmem : '\\' ∈ asciiLower w := List.mem_map.mpr ⟨'\\', h, by decide⟩
  have hnone : ∀ s ∈ placeNames, '\\' ∉ s.toList := by decide
  exact hnone s hs (heq ▸ hmem)

variable {lead : Bool} {written : String} {n : Nat} {rest : List Token}

lemma descriptor?_of_spells (hq : IsQualifiedName written)
    (hself : IsNone placeNames ((if lead then ['\\'] else []) ++ written.toList))
    (h : value.Spells (namePatterns lead (.ofName written.toList) ++ classMark))
    (hread : Reads Rules.grammar n (.alt Rules.byReference Rules.expression) (value.tokens ++ rest)
      [value] rest) (imports : Imports) :
    descriptor? value imports = some (ClassName.resolve written imports) := by
  have hwords := EntityDefinition.isSegment_of_mem_words hq
  obtain ⟨row, mark, htokens, hrow, hmark⟩ := exists_append_of_fit h.fit
  obtain ⟨c, w, rfl, hc, hw⟩ : ∃ c w, mark = [c, w] ∧
      (Pattern.symbol "::").accepts c.lexeme = true ∧
      (Pattern.keyword "class").accepts w.lexeme = true := by
    cases hmark with
    | cons hc hmark =>
      cases hmark with
      | cons hw hmark =>
        cases hmark
        exact ⟨_, _, rfl, hc, hw⟩
  rw [htokens, List.append_assoc] at hread
  obtain ⟨k, hvalue⟩ := reads_class_of_fit hrow (hwords _ (by simp [Segments.words])).2 hc hw hread
  obtain rfl := List.singleton_inj.mp hvalue
  have hspells : (node k (leaves row)).Spells (namePatterns lead (.ofName written.toList)) := by
    have hrow' : (node k (leaves row)).tokens = row := tokensAll_leaves row
    have htight := h.tight
    refine ⟨hrow'.symm ▸ hrow, ?_⟩
    rw [htokens] at htight
    rw [hrow']
    cases row with
    | nil => simp [Tight]
    | cons t row => exact fun u hu => htight u (List.mem_append_left _ hu)
  have htext := nameText_of_spells hspells fun w hw => (hwords w hw).1
  rw [Segments.text_ofName] at htext
  have hbare : ClassName.bare (String.ofList ((if lead then ['\\'] else []) ++ written.toList)) =
      written := htext ▸ bare_of_spells hspells hq
  have hne : String.ofList ((if lead then ['\\'] else []) ++ written.toList) ≠ "" := by
    intro hempty
    rw [hempty] at hbare
    exact ne_empty_of_isQualifiedName hq (hbare.symm.trans (by decide))
  have hascii : ∀ c ∈ (if lead then ['\\'] else []) ++ written.toList, c.toNat < 128 :=
    List.forall_mem_append.mpr
      ⟨by cases lead <;> simp, toNat_lt_of_isQualifiedName hq⟩
  rw [descriptor?, classReference?_eq_some hw htext hne (by simpa using hascii) (by simpa using hself),
    ← ClassName.resolve_bare, hbare]
  rfl

lemma ClassSpelling.descriptor?_eq {source : String} (h : ClassSpelling root name value)
    (hparse : parse source = some root) (hq : IsQualifiedName name) (hname : '\\' ∈ name.toList)
    (hread : Reads Rules.grammar n (.alt Rules.byReference Rules.expression) (value.tokens ++ rest)
      [value] rest) :
    descriptor? value (collect root) = some ("\\" ++ name) := by
  have hqualify : ClassName.qualify name = "\\" ++ name := by
    rw [ClassName.qualify, EntityDefinition.bare_of_isQualifiedName hq]
  cases h with
  | qualified h =>
    have hself (front : List Char) : IsNone placeNames (front ++ name.toList) :=
      isNone_of_mem (List.mem_append_right _ hname)
    rw [descriptor?_of_spells hq (hself _) h hread, ClassName.resolve,
      EntityDefinition.bare_of_isQualifiedName hq, get?_collect_eq_none hparse hname, ← hqualify]
  | @imported short hs hself hlast h =>
    have hshort := isQualifiedName_of_isSegment hs
    rw [descriptor?_of_spells hshort (by simpa using hself) h hread, ClassName.resolve,
      EntityDefinition.bare_of_isQualifiedName hshort, hlast.get?_collect hparse hq hs.1, ← hqualify]
  | @quoted t q htokens hquote htext =>
    obtain ⟨k, hk, hvalue⟩ := Literal.value?_escaped hquote htext
    rw [htokens, List.singleton_append] at hread
    obtain rfl := List.singleton_inj.mp (reads_string hk hread)
    rw [descriptor?, hvalue, Option.some_or, String.ofList_cons, String.ofList_toList]
    rfl

/-! ### Columns -/

open Generate

variable {a item key : Tree} {before after : List Tree} {column : String}

/-- The key of an entry is that of its item. -/
lemma key_of_literalEntry {imports : Imports} {e : String × String}
    (h : literalEntry imports item = some e) : item.nodes.head?.bind Literal.value? = some e.1 := by
  rw [literalEntry] at h
  split at h
  · next key value _ hnodes =>
    obtain ⟨k, hkey, h⟩ := Option.bind_eq_some_iff.mp h
    obtain ⟨v, -, h⟩ := Option.bind_eq_some_iff.mp h
    cases h
    rw [hnodes, List.head?_cons, Option.bind_some, hkey]
  · cases h

lemma get?_literalMap {imports : Imports} {descriptor : String} (harray : a.is .array = true)
    (hitems : a.childrenOf .arrayElement = before ++ item :: after)
    (hitem : literalEntry imports item = some (column, descriptor))
    (hlast : ∀ i ∈ after, i.nodes.head?.bind Literal.value? ≠ some column) :
    (literalMap (some a) imports).get? column = some descriptor := by
  rw [literalMap, entries, if_pos harray, hitems, List.filterMap_append, List.filterMap_cons, hitem]
  refine OrderedMap.get?_ofList_last _ fun e he heq => ?_
  obtain ⟨i, hi, he⟩ := List.mem_filterMap.mp he
  exact hlast i hi (heq ▸ key_of_literalEntry he)

/-- **The spelling of a class makes no difference.** Whichever way the cast of a column is written,
its descriptor is the class's full name, and what comes of it is what the project gives for this
name, a type or a failure. There are types for all columns unless the chain of some cast's class is
blocked, and then this is the column's. Which other imports there are, and what the resolver was
asked before, does not matter. -/
theorem columnTypes_of_spelling (files : FileTree) (place : Path) (earlier : List String)
    (log : List LogEntry) (hparse : parse source = some root) (ha : a ∈ root.preorder)
    (harray : a.is .array = true) (hitems : a.childrenOf .arrayElement = before ++ item :: after)
    (hnodes : item.nodes = [key, value]) (hkey : Literal.value? key = some column)
    (hlast : ∀ i ∈ after, i.nodes.head?.bind Literal.value? ≠ some column)
    (hq : IsQualifiedName name) (hname : '\\' ∈ name.toList)
    (hspelling : ClassSpelling root name value) :
    let casts := literalMap (some a) (collect root)
    let before := (Resolver.after files place earlier, log)
    casts.get? column = some ("\\" ++ name) ∧
      ((typeOf (lookUp files) (casts.get? column)).run.run before).1 =
        typeBy (Resolver.fresh files place) ("\\" ++ name) ∧
      ((∃ types, ((columnTypes (lookUp files) casts).run.run before).1 = .ok types) ↔
        ¬Stuck files place casts) ∧
      ∀ types, ((columnTypes (lookUp files) casts).run.run before).1 = .ok types →
        ∃ type, typeBy (Resolver.fresh files place) ("\\" ++ name) = .ok type ∧
          types.get? column = some type := by
  intro casts start
  have hchild : item ∈ a.childrenOf .arrayElement := by rw [hitems]; simp
  obtain ⟨hchild, hk⟩ := List.mem_filter.mp hchild
  obtain ⟨harrow, n, rest, hread⟩ :=
    reads_value hparse (mem_preorder_child ha hchild) hk hnodes
  have hentry : literalEntry (collect root) item = some (column, "\\" ++ name) := by
    rw [literalEntry, harrow, hnodes]
    dsimp only
    rw [hkey, hspelling.descriptor?_eq hparse hq hname hread]
    rfl
  -- The item is the last one of the column, so the cast is the class.
  have hcast : casts.get? column = some ("\\" ++ name) := get?_literalMap harray hitems hentry hlast
  have hsound : start.1.Sound files := Resolver.sound_after files place earlier
  have hroot : start.1.root = place := Resolver.root_after files place earlier
  refine ⟨hcast, ?_, ?_, fun types htypes => ?_⟩
  · rw [hcast, (run_typeOf hsound _).1, hroot]
  · rw [run_columnTypes hsound, hroot]
    exact exists_columnTypes_fresh_iff
  · rw [run_columnTypes hsound, hroot] at htypes
    obtain ⟨g, hg, rfl⟩ := columnTypes_eq_ok_iff.mp htypes
    refine ⟨_, hg _ (OrderedMap.get?_eq_some_iff.mp hcast), ?_⟩
    rw [OrderedMap.get?_mapValues, hcast]
    rfl

/-- A model whose cast class is a member of a group and has another name there. -/
def modelWithAlias : String :=
  "<?php use App\\\x7bA as B, C\x7d; class User \x7b protected $casts = ['a' => B::class]; \x7d"

/-- The column has the type of the class. -/
theorem columnTypes_of_spelling_alias :
    ∃ root ∈ parse modelWithAlias, ∃ a ∈ root.preorder, a.is .array = true ∧
      ((typeOf (lookUp (castFiles "app")) ((literalMap (some a) (collect root)).get? "a")).run.run
        (Resolver.after (castFiles "app") ⟨.relative, []⟩ ["\\C"], [])).1 = .ok "int" := by
  have himport : ∃ root ∈ parse modelWithAlias,
      ∃ x ∈ (allClauses root)[0]?, hasKeyword x.1 = false ∧ isNoClass x.2 = false ∧
        (x.1.child? .useGroup).isSome = true ∧
        (∃ s ∈ x.1.child? .namespaceName, s.Spells (namePatterns false (.ofName "App".toList))) ∧
        (∃ t ∈ x.2.nodes[0]?, t.Spells (namePatterns false (.ofName "A".toList))) ∧
        (∃ l ∈ x.2.nodes[1]?, l.text = "B".toList) ∧ x.2.nodes.length = 2 ∧
        ∀ y ∈ (allClauses root).drop 1, (clauseImport? y.1 y.2).map Prod.fst ≠ some "B" := by
    decide +kernel
  have hitem : ∃ root ∈ parse modelWithAlias, ∃ a ∈ root.preorder, a.is .array = true ∧
      ∃ item ∈ (a.childrenOf .arrayElement)[0]?,
        (∃ key ∈ item.nodes[0]?, Literal.value? key = some "a") ∧
        (∃ value ∈ item.nodes[1]?,
          value.Spells (namePatterns false (.ofName "B".toList) ++ classMark)) ∧
        item.nodes.length = 2 ∧ ∀ i ∈ (a.childrenOf .arrayElement).drop 1,
          i.nodes.head?.bind Literal.value? ≠ some "a" := by
    decide +kernel
  have hpair {ts : List Tree} {t u : Tree} (ht : ts[0]? = some t) (hu : ts[1]? = some u)
      (hlength : ts.length = 2) : ts = [t, u] := by
    obtain ⟨_, _, rfl⟩ := List.length_eq_two.mp hlength
    cases ht
    cases hu
    rfl
  obtain ⟨root, hparse, x, hx, hkey, hc, hgroup, ⟨s, hspace, hs⟩, ⟨t, ht, hname⟩, ⟨l, hl, hshort⟩,
    hlength, hlast⟩ := himport
  obtain ⟨root', hparse', a, ha, harray, item, hi, ⟨key, hk, hcolumn⟩, ⟨value, hv, hvalue⟩,
    hlength', hafter⟩ := hitem
  obtain rfl : root = root' := Option.some.inj (hparse.symm.trans hparse')
  have hbinds : Binds "App\\A" "B" x.1 x.2 :=
    .member hgroup hspace hs (hpair ht hl hlength) hname (by decide +kernel) (.inr ⟨l, rfl, hshort⟩)
  have hlast : LastBinds root "App\\A" "B" :=
    ⟨_, x.1, x.2, _, eq_take_cons_drop hx, hkey, hc, hbinds, hlast⟩
  have htype := (columnTypes_of_spelling (castFiles "app") ⟨.relative, []⟩ ["\\C"] [] hparse ha
    harray (eq_take_cons_drop hi) (hpair hk hv hlength') hcolumn hafter (by decide +kernel)
    (by decide) (.imported (by decide +kernel) (by decide) hlast hvalue)).2.1
  have hplace : sourcePlace? (castFiles "app") ⟨.relative, []⟩ (ClassName.bare "\\App\\A") =
      some ["app", "A.php"] := by decide +kernel
  have hlookup : "\\" ++ "App\\A" = "\\App\\A" := rfl
  rw [hlookup, typeBy_of_class (by decide +kernel), fresh_of_castNode hplace rfl] at htype
  exact ⟨root, hparse, a, ha, harray, htype⟩

/-- The second function of a list takes the name of a class away from it. -/
theorem locate_of_function_import :
    ∃ root ∈ parse ("<?php use App\\A; use function a\\b, c\\A; " ++
        "class User \x7b protected $casts = ['a' => A::class, 'b' => \\App\\A::class]; \x7d"),
      (∃ x ∈ (allClauses root).head?, hasKeyword x.1 = false ∧
        clauseImport? x.1 x.2 = some ("A", "App\\A")) ∧
      (∀ y ∈ (allClauses root).tail, hasKeyword y.1 = true) ∧
      OrderedMap.entries (locate root (collect root)) = [("a", "\\c\\A"), ("b", "\\App\\A")] := by
  decide +kernel

end Casts

end EloquentEntity

import EloquentEntity.Proofs.Syntax.Derivation
import EloquentEntity.Syntax.Source
import Mathlib.Data.List.TakeWhile

/-!
The names in a source that parses.

Whatever stands around a name, its last token is a word: this is checked once for all rules of the
grammar. And a word has a first character, since the source goes on after it.
-/

namespace EloquentEntity.Syntax

open Syntax.Tree

/-! ### The shape of names -/

def EndsInWord (us : List Tree) : Prop := ∃ init t, us = init ++ [.leaf t] ∧ t.kind = .word

def IsNameNode (t : Tree) : Prop := t.is .name = true ∨ t.is .qualifiedName = true

/-- How names, and the clauses of imports, are made. -/
def NameShape (k : Kind) (cs : List Tree) : Prop :=
  match k with
  | .name | .qualifiedName => EndsInWord cs
  | .useClause => ∀ u ∈ cs, u.kind?.isSome = true → IsNameNode u
  | _ => True

def Pattern.isWord : Pattern → Bool
  | .kind k => k == .word
  | .keyword _ | .exactly _ | .oneOf _ | .noneOf _ => true
  | .symbol _ | .afterTag => false

lemma Pattern.kind_of_isWord {p : Pattern} {l : Lexeme} (hp : p.isWord = true)
    (h : p.accepts l = true) : l.kind = .word := by
  cases p with
  | kind k =>
    obtain rfl : k = .word := by simpa [isWord] using hp
    simpa [accepts] using h
  | symbol s => cases hp
  | afterTag => cases hp
  | keyword w | exactly w | oneOf ws | noneOf ws =>
    simp only [accepts, Bool.and_eq_true, beq_iff_eq] at h
    exact h.1

namespace Rule

variable {σ : Type}

/-- What the rule reads ends in a word, or is nothing where that is allowed. -/
def endsInWord : Bool → Rule σ → Bool
  | orNothing, .empty => orNothing
  | _, .never => true
  | _, .token p => p.isWord
  | orNothing, .seq a b => b.endsInWord false || (a.endsInWord orNothing && b.endsInWord true)
  | orNothing, .alt a b => a.endsInWord orNothing && b.endsInWord orNothing
  | orNothing, .many a => orNothing && a.endsInWord true
  | _, _ => false

def onlyNames : Rule σ → Bool
  | .empty | .never | .token _ | .ahead _ | .notAhead _ => true
  | .seq a b | .alt a b => a.onlyNames && b.onlyNames
  | .many a => a.onlyNames
  | .node k _ => k == .name || k == .qualifiedName
  | _ => false

end Rule

section Derivations

variable {σ : Type} {grammar : σ → Rule σ} {a : Rule σ} {ts ts' : List Token} {us vs : List Tree}

lemma EndsInWord.append (h : EndsInWord vs) (us : List Tree) : EndsInWord (us ++ vs) := by
  obtain ⟨init, t, rfl, ht⟩ := h
  exact ⟨us ++ init, t, by simp, ht⟩

lemma Derives.endsInWord {orNothing : Bool} (h : Derives grammar a ts us ts')
    (ha : a.endsInWord orNothing = true) : (orNothing = true ∧ us = []) ∨ EndsInWord us := by
  induction h generalizing orNothing with
  | empty => exact .inl ⟨ha, rfl⟩
  | token hp => exact .inr ⟨[], _, rfl, Pattern.kind_of_isWord ha hp⟩
  | seq _ _ iha ihb =>
    simp only [Rule.endsInWord, Bool.or_eq_true, Bool.and_eq_true] at ha
    rcases ha with hb | ⟨ha, hb⟩
    · rcases ihb hb with ⟨hno, -⟩ | hb
      · cases hno
      · exact .inr (hb.append _)
    · rcases ihb hb with ⟨-, rfl⟩ | hb
      · simpa using iha ha
      · exact .inr (hb.append _)
  | left _ ih =>
    simp only [Rule.endsInWord, Bool.and_eq_true] at ha
    exact ih ha.1
  | right _ ih =>
    simp only [Rule.endsInWord, Bool.and_eq_true] at ha
    exact ih ha.2
  | stop =>
    simp only [Rule.endsInWord, Bool.and_eq_true] at ha
    exact .inl ⟨ha.1, rfl⟩
  | more _ _ iha ihb =>
    rcases ihb ha with ⟨-, rfl⟩ | hb
    · simp only [Rule.endsInWord, Bool.and_eq_true] at ha
      obtain rfl := ha.1
      simpa using iha ha.2
    · exact .inr (hb.append _)
  | _ => cases ha

lemma Derives.onlyNames (h : Derives grammar a ts us ts') (ha : a.onlyNames = true) :
    ∀ u ∈ us, u.kind?.isSome = true → IsNameNode u := by
  induction h with
  | empty | ahead | notAhead | stop => simp
  | token =>
    intro u hu
    obtain rfl := List.mem_singleton.mp hu
    exact fun hk => by cases hk
  | seq _ _ iha ihb =>
    simp only [Rule.onlyNames, Bool.and_eq_true] at ha
    exact List.forall_mem_append.mpr ⟨iha ha.1, ihb ha.2⟩
  | left _ ih =>
    simp only [Rule.onlyNames, Bool.and_eq_true] at ha
    exact ih ha.1
  | right _ ih =>
    simp only [Rule.onlyNames, Bool.and_eq_true] at ha
    exact ih ha.2
  | more _ _ iha ihb => exact List.forall_mem_append.mpr ⟨iha ha, ihb ha⟩
  | node _ _ =>
    intro u hu _
    obtain rfl := List.mem_singleton.mp hu
    simpa [Rule.onlyNames, IsNameNode, Tree.is, Tree.kind?] using ha
  | _ => cases ha

end Derivations

/-! ### The grammar -/

namespace Rules

def nameRule (k : Kind) (a : PhpRule) : Bool :=
  match k with
  | .name | .qualifiedName => a.endsInWord false
  | .useClause => a.onlyNames
  | _ => true

def isUnnamed (k : Kind) : Bool := !([Kind.name, .qualifiedName, .useClause].contains k)

lemma check_grammar (s : RuleName) : (grammar s).check nameRule isUnnamed = true := by
  cases s <;> decide +kernel

lemma check_program : program.check nameRule isUnnamed = true := by decide +kernel

lemma nameShape_of_nameRule {k : Kind} {a : PhpRule} {ts ts' : List Token} {us : List Tree}
    (ha : nameRule k a = true) (h : Derives grammar a ts us ts') : NameShape k us := by
  have hword (ha : a.endsInWord false = true) : EndsInWord us := by
    rcases h.endsInWord ha with ⟨hno, -⟩ | hword
    · cases hno
    · exact hword
  rw [NameShape.eq_def]
  split
  · exact hword ha
  · exact hword ha
  · exact h.onlyNames ha
  · trivial

lemma nameShape_of_isUnnamed {k : Kind} (hk : isUnnamed k = true) (cs : List Tree) :
    NameShape k cs := by
  rw [NameShape.eq_def]
  split <;> trivial

end Rules

variable {source : String} {root : Tree}

lemma run_of_parse (h : parse source = some root) :
    ∃ n, Rules.program.run Rules.grammar n (tokens source) = .read [root] [] := by
  rw [parse, parseTokens] at h
  split at h
  · next hrun =>
    obtain rfl := Option.some.inj h
    exact ⟨_, hrun⟩
  · cases h

lemma derives_of_parse (h : parse source = some root) :
    Derives Rules.grammar Rules.program (tokens source) [root] [] :=
  derives_of_run (run_of_parse h).choose_spec

lemma is_program_of_parse (h : parse source = some root) : root.is .program = true := by
  cases derives_of_parse h with
  | node _ => rfl

/-- In a source that parses, every name ends in a word. -/
theorem shaped_of_parse (h : parse source = some root) : root.Shaped NameShape :=
  shaped_of_run Rules.check_grammar
    (fun ha hrun => Rules.nameShape_of_nameRule ha (derives_of_run hrun))
    Rules.nameShape_of_isUnnamed (run_of_parse h).choose_spec (.fresh Rules.check_program)
    (by simp) root (by simp)

theorem tokens_of_parse (h : parse source = some root) : root.tokens = tokens source := by
  have := (derives_of_parse h).tokens_eq Rules.check_grammar (.fresh Rules.check_program)
  simpa [tokensAll] using this.symm

lemma exists_stop_of_parse (h : parse source = some root) :
    ∃ init t, tokens source = init ++ [t] ∧ t.kind = .stop := by
  have hall := tokens_of_parse h
  have h := derives_of_parse h
  rw [Rules.program, Rule.kind] at h
  cases h with
  | node h =>
    cases h with
    | seq _ hstop =>
      cases hstop with
      | token ht =>
        rw [Tree.tokens, tokensAll_append] at hall
        exact ⟨_, _, hall.symm, by simpa [Pattern.accepts, Token.kind] using ht⟩

/-! ### Words -/

lemma kind_scanTemplate (modes : List Mode) (q : Quote) {plain : TokenKind} (hp : plain ≠ .word)
    (start : Nat) (s : List Char) : (scanTemplate modes q plain start s).kind ≠ .word := by
  rw [scanTemplate.eq_def]
  dsimp only
  split
  · exact hp
  · split <;> simp

lemma kind_scanHeredoc {modes : List Mode} {mark : Nat} {s : List Char} {x : Scan}
    (h : scanHeredoc modes mark s = some x) : x.kind ≠ .word := by
  rw [scanHeredoc] at h
  split at h
  · cases h
  · split at h <;> cases h <;> simp
  · obtain rfl := Option.some.inj h
    exact kind_scanTemplate _ _ (by decide) _ _

lemma kind_scanString {modes : List Mode} {mark : Nat} {s : List Char} {x : Scan}
    (h : scanString modes mark s = some x) : x.kind ≠ .word := by
  rw [scanString] at h
  split at h
  · split at h <;> cases h <;> simp
  · obtain rfl := Option.some.inj h
    exact kind_scanTemplate _ _ (by decide) _ _
  · exact kind_scanHeredoc h
  · cases h

lemma kind_scanSymbol (modes : List Mode) (s : List Char) : (scanSymbol modes s).kind ≠ .word := by
  rw [scanSymbol.eq_def]
  split
  · simp
  · split <;> simp
    split <;> simp

lemma kind_scanInside (modes : List Mode) (q : Quote) (s : List Char) :
    (scanInside modes q s).kind ≠ .word := by
  rw [scanInside.eq_def]
  split
  · simp
  · split <;> simp
    split <;> simp

lemma length_scanCode {modes : List Mode} {s : List Char} (h : (scanCode modes s).kind = .word) :
    (scanCode modes s).length = (s.takeWhile isWordPart).length := by
  rcases s with _ | ⟨c, r⟩
  · cases h
  rw [scanCode] at h ⊢
  split at h
  · next hc =>
    rw [if_pos hc]
    rw [scanWord] at h ⊢
    split at h
    · next hb =>
      rw [if_pos hb]
      rcases hx : scanString modes 1 (c :: r) with _ | x
      · rfl
      · rw [hx] at h
        exact absurd h (kind_scanString hx)
    · next hb => rw [if_neg hb]
  · split at h
    · cases h
    · split at h
      · cases h
      · split at h
        · rw [scanCommand] at h
          split at h <;> cases h
        · rcases hx : scanString modes 0 (c :: r) with _ | x
          · rw [hx] at h
            exact absurd h (kind_scanSymbol _ _)
          · rw [hx] at h
            exact absurd h (kind_scanString hx)

/-- A word takes the characters of words that are next. -/
lemma length_scan {modes : List Mode} {s : List Char} (h : (scan modes s).kind = .word) :
    (scan modes s).length = (s.takeWhile isWordPart).length := by
  fun_induction scan modes s with
  | case1 | case2 | case4 => cases h
  | case3 _ _ _ _ ih | case5 _ _ _ _ ih | case6 _ _ _ _ _ ih => exact ih h
  | case7 => rfl
  | case8 => exact absurd h (kind_scanInside _ _ _)
  | case9 => exact length_scanCode h

lemma tokensFrom_ne_nil (fuel : Nat) (modes : List Mode) (g : Gap) :
    tokensFrom fuel modes g ≠ [] := by
  cases fuel with
  | zero => simp [tokensFrom]
  | succ fuel =>
    rw [tokensFrom]
    dsimp only
    split <;> simp

/-- A word that the source goes on after has a character, and its characters are those of words. -/
lemma word_of_mem_dropLast {fuel : Nat} {modes : List Mode} {g : Gap} {t : Token}
    (h : t ∈ (tokensFrom fuel modes g).dropLast) (hk : t.kind = .word) :
    t.text ≠ [] ∧ ∀ c ∈ t.text, isWordPart c = true := by
  induction fuel generalizing modes g with
  | zero => simp [tokensFrom] at h
  | succ fuel ih =>
    rw [tokensFrom] at h
    dsimp only at h
    split at h
    · simp at h
    · next n hn =>
      rw [List.dropLast_cons_of_ne_nil (tokensFrom_ne_nil _ _ _)] at h
      rcases List.mem_cons.mp h with rfl | h
      · have hlength := length_scan hk
        have htake : g.rest.take (scan modes g.rest).length = g.rest.takeWhile isWordPart := by
          rw [hlength]
          exact (List.prefix_iff_eq_take.mp (List.takeWhile_prefix _)).symm
        change g.rest.take (scan modes g.rest).length ≠ [] ∧
          ∀ c ∈ g.rest.take (scan modes g.rest).length, _
        rw [htake]
        refine ⟨fun hnil => ?_, fun c hc => List.mem_takeWhile_imp hc⟩
        rw [hlength, hnil] at hn
        cases hn
      · exact ih h

/-- In a source that parses, words have characters, and only those of words. -/
theorem word_of_parse (h : parse source = some root) {t : Token} (ht : t ∈ root.tokens)
    (hk : t.kind = .word) : t.text ≠ [] ∧ ∀ c ∈ t.text, isWordPart c = true := by
  obtain ⟨init, stop, hinit, hstop⟩ := exists_stop_of_parse h
  rw [tokens_of_parse h, hinit, List.mem_append, List.mem_singleton] at ht
  rcases ht with ht | rfl
  · have hdrop : init = (tokens source).dropLast := by rw [hinit, List.dropLast_concat]
    rw [hdrop, tokens] at ht
    exact word_of_mem_dropLast ht hk
  · rw [hk] at hstop
    cases hstop

end EloquentEntity.Syntax

import EloquentEntity.Proofs.Syntax.Agreement
import EloquentEntity.Proofs.Syntax.Alike
import EloquentEntity.Proofs.Syntax.Letters

/-!
Trees in which one gap has changed.

The trees of a source and of the source with an insertion differ in the gap of one token. What is
read off a node is the same unless the node has this token behind other ones: these are the nodes
around the place. Of them, names and strings count as one token, so that no place is inside.
-/

namespace EloquentEntity.Syntax

open Syntax.Tree

namespace Tree

/-! ### The trees around a place -/

mutual

/-- The subtrees around the gap before token number `n`, each with the number of its own tokens
before the gap. -/
def around : Nat → Tree → List (Nat × Tree)
  | _, leaf _ => []
  | n, node k cs => if n = 0 then [] else (n, node k cs) :: aroundAll n cs

def aroundAll : Nat → List Tree → List (Nat × Tree)
  | _, [] => []
  | n, t :: ts =>
    if n < t.tokens.length then around n t else aroundAll (n - t.tokens.length) ts

end

def endOf (p : Tree → Bool) : List Tree → Nat
  | [] => 0
  | t :: ts => t.tokens.length + if p t then 0 else endOf p ts

/-- What counts as one token: names, and strings without expressions in them. -/
def unitKinds : List Kind :=
  [.name, .qualifiedName, .relativeName, .namespaceName, .singleQuoted, .doubleQuoted, .heredoc,
    .nowdoc]

def isUnit (t : Tree) : Bool := t.isOneOf unitKinds

def isClassName (t : Tree) : Bool :=
  t.is .classConstant && t.nodes.getLast?.any (Text.lower ·.text == "class".toList)

/-- A text may be inserted behind `n` tokens of a tree: not inside what counts as one token, such
as a property's variable with its dollar sign, and a comment not inside the operand before
`::class`. -/
structure Allows (w : List Char) (n : Nat) (t : Tree) : Prop where
  unit : t.isUnit = false
  property : t.is .propertyElement = true → endOf (·.is .variableName) t.children ≤ n
  operand : w.head? = some '/' → t.isClassName = true → endOf (·.kind?.isSome) t.children ≤ n

instance (w : List Char) (n : Nat) (t : Tree) : Decidable (t.Allows w n) :=
  decidable_of_iff (t.isUnit = false ∧
      (t.is .propertyElement = true → endOf (·.is .variableName) t.children ≤ n) ∧
      (w.head? = some '/' → t.isClassName = true → endOf (·.kind?.isSome) t.children ≤ n))
    ⟨fun ⟨hunit, hproperty, hoperand⟩ => ⟨hunit, hproperty, hoperand⟩,
      fun h => ⟨h.unit, h.property, h.operand⟩⟩

mutual

lemma around_zero : ∀ t : Tree, around 0 t = []
  | leaf _ => rfl
  | node _ _ => rfl

lemma aroundAll_zero : ∀ ts : List Tree, aroundAll 0 ts = []
  | [] => rfl
  | t :: ts => by
    rw [aroundAll, Nat.zero_sub, around_zero, aroundAll_zero ts, ite_self]

end

variable {t u : Tree} {ts us : List Tree} {k : Kind}

/-! ### Trees of the same lexemes -/

namespace Alike

mutual

lemma length_eq : ∀ {t u : Tree}, Alike t u → u.tokens.length = t.tokens.length
  | _, _, .leaf _ => rfl
  | _, _, .node h => length_eq_all h

lemma length_eq_all : ∀ {ts us : List Tree}, List.Forall₂ Alike ts us →
    (tokensAll us).length = (tokensAll ts).length
  | _, _, .nil => rfl
  | _, _, .cons h hs => by
    rw [tokensAll, tokensAll, List.length_append, List.length_append, length_eq h, length_eq_all hs]

end

lemma kind?_eq (h : Alike t u) : u.kind? = t.kind? := by cases h <;> rfl

lemma children (h : Alike t u) : List.Forall₂ Alike t.children u.children := by
  cases h with
  | leaf => exact .nil
  | node h => exact h

mutual

lemma eq_of_tokens_eq : ∀ {t u : Tree}, Alike t u → u.tokens = t.tokens → u = t
  | _, _, .leaf _, ht => congrArg Tree.leaf (List.head_eq_of_cons_eq ht)
  | _, _, .node h, ht => congrArg (Tree.node _) (eq_of_tokensAll_eq h ht)

lemma eq_of_tokensAll_eq : ∀ {ts us : List Tree}, List.Forall₂ Alike ts us →
    tokensAll us = tokensAll ts → us = ts
  | _, _, .nil, _ => rfl
  | _, _, .cons h hs, ht => by
    rw [tokensAll, tokensAll] at ht
    obtain ⟨hfirst, hrest⟩ := List.append_inj ht h.length_eq
    rw [eq_of_tokens_eq h hfirst, eq_of_tokensAll_eq hs hrest]

end

lemma hasToken_eq (h : Alike t u) (p : Pattern) : u.hasToken p = t.hasToken p := by
  refine (any_related h.children fun a b hab => ?_).symm
  cases hab with
  | leaf hlexeme => exact congrArg p.accepts hlexeme
  | node => rfl

end Alike

/-! ### Rows of trees with one gap changed -/

variable {x x' : Token} {b a : List Token} {p : Tree → Bool}

/-- The tokens of both are the same but for the gap of one, which has `b` before it. -/
structure Edited (x x' : Token) (b a : List Token) (ts us : List Tree) : Prop where
  alike : List.Forall₂ Alike ts us
  old : tokensAll ts = b ++ x :: a
  new : tokensAll us = b ++ x' :: a

/-- The changed token is in the first tree or behind it. -/
lemma Edited.cases (h : Edited x x' b a (t :: ts) us) : ∃ u us', us = u :: us' ∧ Alike t u ∧
    ((b.length < t.tokens.length ∧ us' = ts ∧
        ∃ a', t.tokens = b ++ x :: a' ∧ u.tokens = b ++ x' :: a') ∨
      (t.tokens.length ≤ b.length ∧ u = t ∧
        ∃ b', b = t.tokens ++ b' ∧ Edited x x' b' a ts us')) := by
  obtain ⟨halike, hold, hnew⟩ := h
  obtain ⟨u, us', htu, hrest, rfl⟩ := List.forall₂_cons_left_iff.mp halike
  refine ⟨u, us', rfl, htu, ?_⟩
  rw [tokensAll] at hold hnew
  by_cases hlt : b.length < t.tokens.length
  · left
    have hlt' : b.length < u.tokens.length := by rwa [htu.length_eq]
    obtain ⟨a₁, ht, ha₁⟩ := append_split (s := b ++ [x]) (r := a) (by simpa using hold.symm)
      (by rwa [List.length_append])
    obtain ⟨a₂, hu, ha₂⟩ := append_split (s := b ++ [x']) (r := a) (by simpa using hnew.symm)
      (by rwa [List.length_append])
    have hlength : a₁.length = a₂.length := by
      have := htu.length_eq
      rw [ht, hu] at this
      simpa using this.symm
    obtain ⟨rfl, hsame⟩ := List.append_inj (ha₁.symm.trans ha₂) hlength
    exact ⟨hlt, Alike.eq_of_tokensAll_eq hrest hsame.symm, a₁, by simpa using ht, by simpa using hu⟩
  · right
    have hle : t.tokens.length ≤ b.length := Nat.le_of_not_lt hlt
    obtain ⟨b₁, hb₁, hts⟩ := append_split hold hle
    obtain ⟨b₂, hb₂, hus⟩ := append_split hnew (htu.length_eq.trans_le hle)
    obtain ⟨hsame, rfl⟩ := List.append_inj (hb₂.symm.trans hb₁) htu.length_eq
    exact ⟨hle, htu.eq_of_tokens_eq hsame, b₂, hb₁, hrest, hts, hus⟩

/-- The gap before a tree is no part of its text. -/
lemma text_eq_of_front (hx : x'.text = x.text) (ht : t.tokens = x :: a) (hu : u.tokens = x' :: a) :
    u.text = t.text := by
  rw [text, text, ht, hu, joinTokens, joinTokens, hx]

/-- Behind its first tokens, the text of a row holds what is written of the others. -/
lemma joinTokens_append (hb : b ≠ []) (a : List Token) :
    joinTokens (b ++ a) = joinTokens b ++ writtenAll a := by
  obtain ⟨c, b, rfl⟩ := List.exists_cons_of_ne_nil hb
  rw [List.cons_append, joinTokens, joinTokens, List.flatMap_append, List.append_assoc]
  rfl

lemma mem_joinTokens {ts : List Token} {t : Token} {c : Char} (ht : t ∈ ts) (hc : c ∈ t.text) :
    c ∈ joinTokens ts := by
  obtain ⟨u, ts, rfl⟩ := List.exists_cons_of_ne_nil (List.ne_nil_of_mem ht)
  rw [joinTokens, List.mem_append, List.mem_flatMap]
  rcases List.mem_cons.mp ht with rfl | ht
  · exact .inl hc
  · exact .inr ⟨t, ht, List.mem_append_right _ hc⟩

/-- The first tree that `p` accepts has the same text, if it is not parted. -/
lemma Edited.find? (h : Edited x x' b a ts us) (hx : x'.text = x.text)
    (hp : ∀ {t u : Tree}, Alike t u → p u = p t) (hend : b = [] ∨ endOf p ts ≤ b.length) :
    Option.Rel (fun t u => u.text = t.text) (ts.find? p) (us.find? p) := by
  have hsame (o : Option Tree) : Option.Rel (fun t u : Tree => u.text = t.text) o o := by
    cases o with
    | none => exact .none
    | some t => exact .some rfl
  induction ts generalizing us b with
  | nil =>
    cases h.alike
    exact .none
  | cons t ts ih =>
    rw [endOf] at hend
    obtain ⟨u, us, rfl, htu, ⟨hlt, rfl, a', ht, hu⟩ | ⟨hle, rfl, b, rfl, hrest⟩⟩ := h.cases
    · rw [List.find?_cons, List.find?_cons, hp htu]
      cases p t with
      | true =>
        obtain rfl := hend.resolve_right (by omega)
        exact .some (text_eq_of_front hx ht hu)
      | false => exact hsame _
    · rw [List.find?_cons, List.find?_cons]
      cases hpt : p u with
      | true => exact .some rfl
      | false =>
        rw [hpt] at hend
        refine ih hrest ?_
        rw [List.append_eq_nil_iff, List.length_append] at hend
        refine hend.imp And.right fun hend => ?_
        simp only [Bool.false_eq_true, if_false] at hend
        omega

end Tree

/-! ### The trees of a source with an insertion -/

variable {source : String} {root : Tree} {p : Place source} {w : List Char} {t u : Tree}

/-- The trees are the same, or the gap at the place has changed in them. -/
inductive Respaced (p : Place source) (w : List Char) (t u : Tree) : Prop
  | same : u = t → Respaced p w t u
  | edited (b a : List Token) : b <:+ p.before → t.Alike u → t.tokens = b ++ p.next :: a →
      u.tokens = b ++ p.spaced w :: a → (∀ y ∈ t.around b.length, y.2.Allows w y.1) →
      Respaced p w t u

namespace Respaced

lemma of_edited {b a : List Token} {ts us : List Tree}
    (h : Edited p.next (p.spaced w) b a ts us) (hb : b <:+ p.before)
    (hallows : ∀ y ∈ aroundAll b.length ts, y.2.Allows w y.1) :
    List.Forall₂ (Respaced p w) ts us := by
  induction ts generalizing us b with
  | nil =>
    cases h.alike
    exact .nil
  | cons t ts ih =>
    rw [aroundAll] at hallows
    obtain ⟨u, us, rfl, htu, ⟨hlt, rfl, a', ht, hu⟩ | ⟨hle, rfl, b, rfl, hrest⟩⟩ := h.cases
    · rw [if_pos hlt] at hallows
      exact .cons (.edited b a' hb htu ht hu hallows)
        (List.forall₂_same.mpr fun _ _ => .same rfl)
    · rw [if_neg (Nat.not_lt.mpr hle), List.length_append, Nat.add_sub_cancel_left] at hallows
      exact .cons (.same rfl) (ih hrest ((List.suffix_append _ _).trans hb) hallows)

lemma alike (h : Respaced p w t u) : t.Alike u := by
  cases h with
  | same h =>
    subst h
    exact .refl _
  | edited _ _ _ h => exact h

lemma children (h : Respaced p w t u) : List.Forall₂ (Respaced p w) t.children u.children := by
  cases h with
  | same h =>
    subst h
    exact List.forall₂_same.mpr fun _ _ => .same rfl
  | edited b a hb halike ht hu hallows =>
    cases halike with
    | leaf => exact .nil
    | @node k ts us h =>
      refine of_edited ⟨h, ht, hu⟩ hb fun y hy => ?_
      rw [around] at hallows
      split at hallows
      · next hempty =>
        rw [hempty, aroundAll_zero] at hy
        cases hy
      · exact hallows y (List.mem_cons_of_mem _ hy)

end Respaced

namespace Respaced

/-- Behind the first token of a node, an insertion has to be allowed. -/
lemma allows_of_edited {k : Kind} {ts : List Tree} {b : List Token} (hb : b ≠ [])
    (hallows : ∀ y ∈ (node k ts).around b.length, y.2.Allows w y.1) :
    (node k ts).Allows w b.length := by
  refine hallows (b.length, node k ts) ?_
  rw [around, if_neg (by simpa using hb)]
  exact List.mem_cons_self

/-- The first child that `q` accepts has the same text, if the place is not inside it. -/
lemma find? {q : Tree → Bool} (h : Respaced p w t u) (hq : ∀ {t u : Tree}, Alike t u → q u = q t)
    (hend : ∀ n, t.Allows w n → endOf q t.children ≤ n) :
    Option.Rel (fun t u => u.text = t.text) (t.children.find? q) (u.children.find? q) := by
  cases h with
  | same h =>
    subst h
    cases u.children.find? q with
    | none => exact .none
    | some t => exact .some rfl
  | edited b a hb halike ht hu hallows =>
    cases halike with
    | leaf => exact .none
    | @node k ts us halike =>
      have hedited : Edited p.next (p.spaced w) b a ts us := ⟨halike, ht, hu⟩
      refine hedited.find? rfl hq ?_
      by_cases hempty : b = []
      · exact .inl hempty
      · exact .inr (hend _ (allows_of_edited hempty hallows))

/-- The text is the same, or the insertion goes into it, next to a character that is no letter. -/
lemma text_cases (hroot : parse source = some root) (h : Respaced p w t u) : u.text = t.text ∨
    ∃ n l r, t.Allows w n ∧ t.text = l ++ r ∧ u.text = l ++ (w ++ r) ∧
      ¬ ∀ c ∈ t.text, isWordStart c = true := by
  cases h with
  | same h => exact .inl (by rw [h])
  | edited b a hb halike ht hu hallows =>
    have hx : (p.spaced w).text = p.next.text := rfl
    rcases List.eq_nil_or_concat' b with rfl | ⟨b, c, rfl⟩
    · exact .inl (text_eq_of_front hx ht hu)
    · have hgap := p.gap_eq
      have hold : t.text = joinTokens (b ++ [c]) ++ p.tag ++ p.row ++
          (p.back ++ p.next.text ++ writtenAll a) := by
        rw [text, ht, joinTokens_append (by simp), writtenAll_cons, hgap]
        simp
      have hnew : u.text = joinTokens (b ++ [c]) ++ p.tag ++ p.row ++
          (w ++ (p.back ++ p.next.text ++ writtenAll a)) := by
        rw [text, hu, joinTokens_append (by simp), writtenAll_cons, hx]
        simp [Place.spaced]
      refine .inr ⟨(b ++ [c]).length, _, _, ?_, hold, hnew, fun hletters => ?_⟩
      · cases halike with
        | leaf =>
          have hlength := congrArg List.length ht
          simp only [Tree.tokens, List.length_append, List.length_cons, List.length_nil] at hlength
          omega
        | node => exact allows_of_edited (by simp) hallows
      · obtain ⟨front, hfront⟩ := hb
        have hlast : c ∈ p.before.getLast? := by rw [← hfront]; simp
        refine p.apart hroot hlast fun d hd => hletters d ?_
        rw [hgap] at hd
        rw [hold]
        simp only [List.mem_append] at hd ⊢
        have hjoin : d ∈ c.text → d ∈ joinTokens (b ++ [c]) := mem_joinTokens (by simp)
        tauto

end Respaced

end EloquentEntity.Syntax

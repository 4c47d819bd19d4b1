import EloquentEntity.Proofs.Syntax.Derivation
import EloquentEntity.Syntax.Source
import Mathlib.Data.List.Forall2

/-!
What is read does not depend on the gaps.

Token lists of the same lexemes are read in the same way: as trees of the same nodes over the same
lexemes.
-/

namespace EloquentEntity.Syntax

/-- The same lexeme, whatever gap stands before. -/
def Token.Alike (t u : Token) : Prop := t.lexeme = u.lexeme

namespace Tree

/-- The same nodes over the same lexemes. -/
inductive Alike : Tree → Tree → Prop
  | leaf {t u : Token} : t.Alike u → Alike (.leaf t) (.leaf u)
  | node {k : Kind} {ts us : List Tree} : List.Forall₂ Alike ts us → Alike (.node k ts) (.node k us)

variable {t u : Tree} {ts us : List Tree} {k : Kind}

namespace Alike

mutual

lemma refl : ∀ t : Tree, Alike t t
  | .leaf _ => .leaf rfl
  | .node _ cs => .node (refl_all cs)

lemma refl_all : ∀ ts : List Tree, List.Forall₂ Alike ts ts
  | [] => .nil
  | t :: ts => .cons (refl t) (refl_all ts)

end

lemma gather (h : List.Forall₂ Alike ts us) : Alike (Tree.gather k ts) (Tree.gather k us) := by
  rcases h with _ | ⟨ht, _ | ⟨ht', h⟩⟩
  · exact .node .nil
  · exact ht
  · exact .node (.cons ht (.cons ht' h))

end Alike

end Tree

open Syntax.Tree

inductive Outcome.Alike : Outcome → Outcome → Prop
  | read {ts us : List Tree} {rest rest' : List Token} : List.Forall₂ Tree.Alike ts us →
      List.Forall₂ Token.Alike rest rest' → Alike (.read ts rest) (.read us rest')
  | failed : Alike .failed .failed
  | outOfFuel : Alike .outOfFuel .outOfFuel

namespace Outcome.Alike

variable {o o' : Outcome}

lemma andThen (h : o.Alike o') {f f' : List Tree → List Token → Outcome}
    (hf : ∀ {ts us rest rest'}, List.Forall₂ Tree.Alike ts us →
      List.Forall₂ Token.Alike rest rest' → (f ts rest).Alike (f' us rest')) :
    (o.andThen f).Alike (o'.andThen f') := by
  cases h with
  | read hts hrest => exact hf hts hrest
  | failed => exact .failed
  | outOfFuel => exact .outOfFuel

lemma orElse (h : o.Alike o') {f f' : Unit → Outcome} (hf : ∀ x, (f x).Alike (f' x)) :
    (o.orElse f).Alike (o'.orElse f') := by
  cases h with
  | read hts hrest => exact .read hts hrest
  | failed => exact hf ()
  | outOfFuel => exact .outOfFuel

lemma after (h : o.Alike o') {ts us : List Tree} (hts : List.Forall₂ Tree.Alike ts us) :
    (o.after ts).Alike (o'.after us) :=
  h.andThen fun hus hrest => .read (List.rel_append hts hus) hrest

end Outcome.Alike

open Outcome

variable {σ : Type} {grammar : σ → Rule σ}

inductive Rule.Alike : Rule σ → Rule σ → Prop
  | refl (a : Rule σ) : Alike a a
  | growFrom {t u : Tree} (next : Kind → Rule σ) :
    t.Alike u → Alike (.growFrom t next) (.growFrom u next)

lemma Rule.Alike.cases {a b : Rule σ} (h : a.Alike b) :
    (∃ t u next, a = .growFrom t next ∧ b = .growFrom u next ∧ t.Alike u) ∨
      a = b ∧ ∀ t next, a ≠ .growFrom t next := by
  cases h with
  | growFrom next htu => exact .inl ⟨_, _, next, rfl, rfl, htu⟩
  | refl =>
    cases a with
    | growFrom t next => exact .inl ⟨t, t, next, rfl, rfl, .refl t⟩
    | _ => exact .inr ⟨rfl, by simp⟩

variable {source source' : String} {root : Tree}

end EloquentEntity.Syntax

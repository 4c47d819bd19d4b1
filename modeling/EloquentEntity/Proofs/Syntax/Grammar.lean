import EloquentEntity.Syntax.Grammar
import Mathlib.Tactic.Common

/-!
What rules read, put together from what their parts read.

The steps that a reading takes are counted along: the fuel is a bound on their depth, and more fuel
changes no outcome. Where a rule cannot match, this can mostly be told from the next token alone;
`refuses` finds it out for a whole rule at once, for all tokens of which the same is known.
-/

namespace EloquentEntity.Syntax

/-! ### Fuel -/

namespace Outcome

def Le (o o' : Outcome) : Prop := o = .outOfFuel ∨ o' = o

variable {o o' : Outcome}

lemma Le.refl (o : Outcome) : o.Le o := .inr rfl

lemma Le.andThen (h : o.Le o') {f f' : List Tree → List Token → Outcome}
    (hf : ∀ us ts, (f us ts).Le (f' us ts)) : (o.andThen f).Le (o'.andThen f') := by
  rcases h with rfl | rfl
  · exact .inl rfl
  · cases o' with
    | read us ts => exact hf us ts
    | failed => exact .refl _
    | outOfFuel => exact .refl _

lemma Le.orElse (h : o.Le o') {f f' : Unit → Outcome} (hf : ∀ u, (f u).Le (f' u)) :
    (o.orElse f).Le (o'.orElse f') := by
  rcases h with rfl | rfl
  · exact .inl rfl
  · cases o' with
    | read us ts => exact .refl _
    | failed => exact hf ()
    | outOfFuel => exact .refl _

lemma Le.after (h : o.Le o') (us : List Tree) : (o.after us).Le (o'.after us) :=
  h.andThen fun _ _ => .refl _

lemma Le.eq_of_ne (h : o.Le o') (ho : o ≠ .outOfFuel) : o' = o := h.resolve_left ho

end Outcome

variable {σ : Type} {grammar : σ → Rule σ} {i j k : Nat} {a b : Rule σ} {p : Pattern} {t : Token}
  {ts ts' ts'' : List Token} {us vs : List Tree}

open Outcome

/-! ### One step -/

namespace Rule

section Steps

variable (grammar : σ → Rule σ) (k : Nat) (a b : Rule σ) (ts : List Token)

lemma run_token_cons (p : Pattern) (t : Token) : (Rule.token p).run grammar (k + 1) (t :: ts) =
    if p.accepts t.lexeme then .read [.leaf t] ts else .failed := rfl

lemma run_ahead_cons (p : Pattern) (t : Token) : (Rule.ahead p).run grammar (k + 1) (t :: ts) =
    if p.accepts t.lexeme then .read [] (t :: ts) else .failed := rfl

lemma run_notAhead_cons (p : Pattern) (t : Token) :
    (Rule.notAhead p).run grammar (k + 1) (t :: ts) =
      if p.accepts t.lexeme then .failed else .read [] (t :: ts) := rfl

lemma run_seq : (Rule.seq a b).run grammar (k + 1) ts =
    (a.run grammar k ts).andThen fun us ts' => (b.run grammar k ts').after us := rfl

lemma run_alt : (Rule.alt a b).run grammar (k + 1) ts =
    (a.run grammar k ts).orElse fun _ => b.run grammar k ts := rfl

lemma run_many : (Rule.many a).run grammar (k + 1) ts =
    ((a.run grammar k ts).andThen fun us ts' => ((Rule.many a).run grammar k ts').after us).orElse
      fun _ => .read [] ts := rfl

lemma run_node (n : Kind) : (Rule.node n a).run grammar (k + 1) ts =
    (a.run grammar k ts).andThen fun us ts' => .read [.node n us] ts' := rfl

lemma run_several (n : Kind) : (Rule.several n a).run grammar (k + 1) ts =
    (a.run grammar k ts).andThen fun us ts' => .read [Tree.gather n us] ts' := rfl

lemma run_grow (next : Kind → Rule σ) : (Rule.grow a next).run grammar (k + 1) ts =
    (a.run grammar k ts).andThen fun us ts' =>
      match us with
      | [t] => (Rule.growFrom t next).run grammar k ts'
      | us => .read us ts' := rfl

lemma run_growFrom_node (n : Kind) (cs : List Tree) (next : Kind → Rule σ) :
    (Rule.growFrom (.node n cs) next).run grammar (k + 1) ts =
      (((next n).run grammar k ts).andThen fun us ts' =>
        match us with
        | [.node n' vs] => (Rule.growFrom (.node n' (.node n cs :: vs)) next).run grammar k ts'
        | _ => .failed).orElse fun _ => .read [.node n cs] ts := rfl

end Steps

/-- More fuel changes no outcome. -/
lemma run_le {n m : Nat} (hnm : n ≤ m) (a : Rule σ) (ts : List Token) :
    (a.run grammar n ts).Le (a.run grammar m ts) := by
  induction n generalizing m a ts with
  | zero => exact .inl rfl
  | succ n ih =>
    obtain ⟨m, rfl⟩ : ∃ m', m = m' + 1 := ⟨m - 1, by omega⟩
    have hle : n ≤ m := by omega
    cases a with
    | empty | never | token | ahead | notAhead => exact .refl _
    | seq a b => exact (ih hle a ts).andThen fun us ts => (ih hle b ts).after us
    | alt a b => exact (ih hle a ts).orElse fun _ => ih hle b ts
    | many a =>
      rw [run_many, run_many]
      exact ((ih hle a ts).andThen fun us ts => (ih hle a.many ts).after us).orElse fun _ => .refl _
    | node k a => exact (ih hle a ts).andThen fun _ _ => .refl _
    | several k a => exact (ih hle a ts).andThen fun _ _ => .refl _
    | grow a next =>
      refine (ih hle a ts).andThen fun us ts => ?_
      split
      · exact ih hle _ ts
      · exact .refl _
    | growFrom t next =>
      cases t with
      | leaf t => exact .refl _
      | node k cs =>
        rw [run_growFrom_node, run_growFrom_node]
        refine ((ih hle (next k) ts).andThen fun us ts => ?_).orElse fun _ => .refl _
        split
        · exact ih hle _ ts
        · exact .refl _
    | ref s => exact ih hle _ ts

end Rule

/-- At depth `k` the rule reads these trees and leaves this rest. -/
def Reads (grammar : σ → Rule σ) (k : Nat) (a : Rule σ) (ts : List Token) (us : List Tree)
    (rest : List Token) : Prop :=
  a.run grammar k ts = .read us rest

/-- At depth `k` the rule is found not to match. -/
def Fails (grammar : σ → Rule σ) (k : Nat) (a : Rule σ) (ts : List Token) : Prop :=
  a.run grammar k ts = .failed

lemma Reads.mono (h : Reads grammar i a ts us ts') (hij : i ≤ j) : Reads grammar j a ts us ts' :=
  ((a.run_le hij ts).eq_of_ne (by rw [h]; simp)).trans h

lemma Fails.mono (h : Fails grammar i a ts) (hij : i ≤ j) : Fails grammar j a ts :=
  ((a.run_le hij ts).eq_of_ne (by rw [h]; simp)).trans h

/-! ### Rules -/

lemma reads_empty (ts : List Token) : Reads grammar 1 .empty ts [] ts := rfl

lemma reads_token (h : p.accepts t.lexeme = true) :
    Reads grammar 1 (.token p) (t :: ts) [.leaf t] ts := if_pos h

lemma Reads.seq (ha : Reads grammar i a ts us ts') (hb : Reads grammar j b ts' vs ts'') :
    Reads grammar (max i j + 1) (.seq a b) ts (us ++ vs) ts'' := by
  have ha := ha.mono (Nat.le_max_left i j)
  have hb := hb.mono (Nat.le_max_right i j)
  rw [Reads] at *
  rw [Rule.run_seq, ha, andThen, hb]
  rfl

lemma Fails.seq_left (ha : Fails grammar i a ts) : Fails grammar (i + 1) (.seq a b) ts := by
  rw [Fails] at *
  rw [Rule.run_seq, ha, andThen]

lemma Fails.seq_right (ha : Reads grammar i a ts us ts') (hb : Fails grammar j b ts') :
    Fails grammar (max i j + 1) (.seq a b) ts := by
  have ha := ha.mono (Nat.le_max_left i j)
  have hb := hb.mono (Nat.le_max_right i j)
  rw [Reads] at ha
  rw [Fails] at *
  rw [Rule.run_seq, ha, andThen, hb]
  rfl

lemma Reads.alt_left (ha : Reads grammar i a ts us ts') :
    Reads grammar (i + 1) (.alt a b) ts us ts' := by
  rw [Reads] at *
  rw [Rule.run_alt, ha]
  rfl

lemma Reads.alt_right (ha : Fails grammar i a ts) (hb : Reads grammar j b ts us ts') :
    Reads grammar (max i j + 1) (.alt a b) ts us ts' := by
  have ha := ha.mono (Nat.le_max_left i j)
  have hb := hb.mono (Nat.le_max_right i j)
  rw [Fails] at ha
  rw [Reads] at *
  rw [Rule.run_alt, ha, orElse, hb]

lemma Fails.alt (ha : Fails grammar i a ts) (hb : Fails grammar j b ts) :
    Fails grammar (max i j + 1) (.alt a b) ts := by
  have ha := ha.mono (Nat.le_max_left i j)
  have hb := hb.mono (Nat.le_max_right i j)
  rw [Fails] at *
  rw [Rule.run_alt, ha, orElse, hb]

lemma reads_many_nil (ha : Fails grammar i a ts) : Reads grammar (i + 1) (.many a) ts [] ts := by
  rw [Fails] at ha
  rw [Reads, Rule.run_many, ha]
  rfl

lemma Reads.many_cons (ha : Reads grammar i a ts us ts')
    (hb : Reads grammar j (.many a) ts' vs ts'') :
    Reads grammar (max i j + 1) (.many a) ts (us ++ vs) ts'' := by
  have ha := ha.mono (Nat.le_max_left i j)
  have hb := hb.mono (Nat.le_max_right i j)
  rw [Reads] at *
  rw [Rule.run_many, ha, andThen, hb]
  rfl

lemma Reads.node (ha : Reads grammar i a ts us ts') (k : Kind) :
    Reads grammar (i + 1) (.node k a) ts [.node k us] ts' := by
  rw [Reads] at *
  rw [Rule.run_node, ha, andThen]

lemma Fails.node (ha : Fails grammar i a ts) (k : Kind) :
    Fails grammar (i + 1) (.node k a) ts := by
  rw [Fails] at *
  rw [Rule.run_node, ha, andThen]

lemma Reads.several (ha : Reads grammar i a ts us ts') (k : Kind) :
    Reads grammar (i + 1) (.several k a) ts [Tree.gather k us] ts' := by
  rw [Reads] at *
  rw [Rule.run_several, ha, andThen]

lemma Fails.several (ha : Fails grammar i a ts) (k : Kind) :
    Fails grammar (i + 1) (.several k a) ts := by
  rw [Fails] at *
  rw [Rule.run_several, ha, andThen]

lemma Fails.grow (ha : Fails grammar i a ts) (next : Kind → Rule σ) :
    Fails grammar (i + 1) (.grow a next) ts := by
  rw [Fails] at *
  rw [Rule.run_grow, ha, andThen]

lemma Reads.ref {s : σ} (h : Reads grammar i (grammar s) ts us ts') :
    Reads grammar (i + 1) (.ref s) ts us ts' := h

/-! ### Derived rules -/

lemma reads_opt_none (ha : Fails grammar i a ts) : Reads grammar (i + 2) (Rule.opt a) ts [] ts :=
  (Reads.alt_right ha (reads_empty ts)).mono (by omega)

lemma Reads.opt (ha : Reads grammar i a ts us ts') : Reads grammar (i + 1) (Rule.opt a) ts us ts' :=
  ha.alt_left

section Tokens

variable {ps : List Pattern}

lemma reads_oneOf_tokens (h : ps.any (·.accepts t.lexeme) = true)
    (ts : List Token) :
    Reads grammar (ps.length + 1) (Rule.oneOf (ps.map .token)) (t :: ts) [.leaf t] ts := by
  induction ps with
  | nil => simp at h
  | cons p ps ih =>
    by_cases hp : p.accepts t.lexeme = true
    · cases ps with
      | nil => exact (reads_token hp).mono (by simp)
      | cons q ps => exact ((reads_token hp).alt_left).mono (by simp)
    · have hfails : Fails grammar 1 (.token p) (t :: ts) := if_neg hp
      rw [List.any_cons, Bool.or_eq_true] at h
      have hrest := ih (h.resolve_left hp)
      cases ps with
      | nil => simp [hp] at h
      | cons q ps => exact (Reads.alt_right hfails hrest).mono (by simp)

lemma fails_oneOf_tokens (h : ps.any (·.accepts t.lexeme) = false)
    (ts : List Token) :
    Fails grammar (ps.length + 1) (Rule.oneOf (ps.map .token)) (t :: ts) := by
  induction ps with
  | nil => rfl
  | cons p ps ih =>
    rw [List.any_cons, Bool.or_eq_false_iff] at h
    have hfails : Fails grammar 1 (.token p) (t :: ts) := if_neg (by simp [h.1])
    cases ps with
    | nil => exact hfails.mono (by simp)
    | cons q ps => exact (hfails.alt (ih h.2)).mono (by simp)

end Tokens

section Lists

variable {α : Type} {items : List α} {written : α → List Token} {trees : α → List Tree}
  {rest : List Token}

lemma follows_flatMap {Follows : List Token → Prop}
    (hf : ∀ item ∈ items, ∀ ts, Follows (written item ++ ts)) (hrest : Follows rest) :
    Follows (items.flatMap written ++ rest) := by
  cases items with
  | nil => exact hrest
  | cons item items =>
    rw [List.flatMap_cons, List.append_assoc]
    exact hf item (by simp) _

/-- One reading for each item of a list, while what follows is in order. -/
lemma reads_many (Follows : List Token → Prop)
    (hf : ∀ item ∈ items, ∀ ts, Follows (written item ++ ts))
    (ha : ∀ item ∈ items, ∀ ts, Follows ts →
      Reads grammar k a (written item ++ ts) (trees item) ts)
    (hrest : Follows rest) (hend : Fails grammar k a rest) :
    Reads grammar (k + items.length + 1) (.many a) (items.flatMap written ++ rest)
      (items.flatMap trees) rest := by
  induction items with
  | nil => exact (reads_many_nil hend).mono (by simp)
  | cons item items ih =>
    have hf' := fun i hi => hf i (List.mem_cons_of_mem item hi)
    have ih := ih hf' fun i hi => ha i (by simp [hi])
    have hfirst := ha item (by simp) _ (follows_flatMap hf' hrest)
    rw [List.flatMap_cons, List.flatMap_cons, List.append_assoc]
    exact (hfirst.many_cons ih).mono (by rw [List.length_cons]; omega)

end Lists

/-! ### What the next token tells -/

/-- What is known of a lexeme: patterns that accept it for certain, and others that do not. -/
structure View where
  accepts : Pattern → Bool
  rejects : Pattern → Bool

def Lexeme.view (l : Lexeme) : View := ⟨fun p => p.accepts l, fun p => !p.accepts l⟩

structure View.Fits (v : View) (l : Lexeme) : Prop where
  accepts : ∀ {p}, v.accepts p = true → p.accepts l = true
  rejects : ∀ {p}, v.rejects p = true → p.accepts l = false

lemma Lexeme.fits_view (l : Lexeme) : l.view.Fits l :=
  ⟨id, fun h => by simpa [view] using h⟩

mutual

/-- The rule matches no token list that starts so. -/
def Rule.refuses (grammar : σ → Rule σ) (v : View) : Nat → Rule σ → Bool
  | 0, _ => false
  | n + 1, rule =>
    match rule with
    | .never => true
    | .token p | .ahead p => v.rejects p
    | .notAhead p => v.accepts p
    | .seq a b =>
      a.refuses grammar v n || (a.skips grammar v n && b.refuses grammar v n)
    | .alt a b => a.refuses grammar v n && b.refuses grammar v n
    | .node _ a | .several _ a | .grow a _ => a.refuses grammar v n
    | .ref s => (grammar s).refuses grammar v n
    | .empty | .many _ | .growFrom .. => false

def Rule.skips (grammar : σ → Rule σ) (v : View) : Nat → Rule σ → Bool
  | 0, _ => false
  | n + 1, rule =>
    match rule with
    | .empty => true
    | .ahead p => v.accepts p
    | .notAhead p => v.rejects p
    | .seq a b => a.skips grammar v n && b.skips grammar v n
    | .alt a b =>
      a.skips grammar v n || (a.refuses grammar v n && b.skips grammar v n)
    | .many a => a.refuses grammar v n
    | .ref s => (grammar s).skips grammar v n
    | .never | .token _ | .node .. | .several .. | .grow .. | .growFrom .. => false

end

lemma refuses_skips {v : View} (hv : v.Fits t.lexeme) (k : Nat) (a : Rule σ) :
    (a.refuses grammar v k = true → Fails grammar k a (t :: ts)) ∧
      (a.skips grammar v k = true → Reads grammar k a (t :: ts) [] (t :: ts)) := by
  induction k generalizing a with
  | zero => simp [Rule.refuses, Rule.skips]
  | succ k ih =>
    cases a with
    | empty => exact ⟨by simp [Rule.refuses], fun _ => rfl⟩
    | never => exact ⟨fun _ => rfl, by simp [Rule.skips]⟩
    | token p =>
      refine ⟨fun h => ?_, by simp [Rule.skips]⟩
      simp [Fails, Rule.run_token_cons, hv.rejects (by simpa [Rule.refuses] using h)]
    | ahead p =>
      refine ⟨fun h => ?_, fun h => ?_⟩
      · simp [Fails, Rule.run_ahead_cons, hv.rejects (by simpa [Rule.refuses] using h)]
      · simp [Reads, Rule.run_ahead_cons, hv.accepts (by simpa [Rule.skips] using h)]
    | notAhead p =>
      refine ⟨fun h => ?_, fun h => ?_⟩
      · simp [Fails, Rule.run_notAhead_cons, hv.accepts (by simpa [Rule.refuses] using h)]
      · simp [Reads, Rule.run_notAhead_cons, hv.rejects (by simpa [Rule.skips] using h)]
    | seq a b =>
      -- The first part refuses the token, or skips it and leaves it to the second.
      simp only [Rule.refuses, Rule.skips, Bool.or_eq_true, Bool.and_eq_true]
      refine ⟨?_, fun ⟨ha, hb⟩ => ?_⟩
      · rintro (ha | ⟨ha, hb⟩)
        · exact ((ih a).1 ha).seq_left
        · exact (Fails.seq_right ((ih a).2 ha) ((ih b).1 hb)).mono (by omega)
      · exact (((ih a).2 ha).seq ((ih b).2 hb)).mono (by omega)
    | alt a b =>
      simp only [Rule.refuses, Rule.skips, Bool.or_eq_true, Bool.and_eq_true]
      refine ⟨fun ⟨ha, hb⟩ => ?_, ?_⟩
      · exact (((ih a).1 ha).alt ((ih b).1 hb)).mono (by omega)
      · rintro (ha | ⟨ha, hb⟩)
        · exact ((ih a).2 ha).alt_left
        · exact (Reads.alt_right ((ih a).1 ha) ((ih b).2 hb)).mono (by omega)
    | many a => exact ⟨by simp [Rule.refuses], fun h => reads_many_nil ((ih a).1 h)⟩
    | node k a => exact ⟨fun h => ((ih a).1 h).node k, by simp [Rule.skips]⟩
    | several k a => exact ⟨fun h => ((ih a).1 h).several k, by simp [Rule.skips]⟩
    | grow a next => exact ⟨fun h => ((ih a).1 h).grow next, by simp [Rule.skips]⟩
    | growFrom => exact ⟨by simp [Rule.refuses], by simp [Rule.skips]⟩
    | ref s => exact ⟨fun h => (ih (grammar s)).1 h, fun h => (ih (grammar s)).2 h⟩

lemma fails_of_refuses {v : View} (hv : v.Fits t.lexeme) (h : a.refuses grammar v k = true) :
    Fails grammar k a (t :: ts) := (refuses_skips hv k a).1 h

/-- The alternative that reads, after others that refuse the next token. -/
lemma reads_oneOf {v : View} {rules : List (Rule σ)} {n : Nat} (hn : rules[n]? = some a)
    (hv : v.Fits t.lexeme) (h : (rules.take n).all (·.refuses grammar v j) = true)
    (ha : Reads grammar k a (t :: ts) us ts') :
    Reads grammar (max j k + n + 1) (Rule.oneOf rules) (t :: ts) us ts' := by
  induction rules generalizing n with
  | nil => simp at hn
  | cons b rules ih =>
    cases n with
    | zero =>
      obtain rfl : b = a := by simpa using hn
      cases rules with
      | nil => exact ha.mono (by omega)
      | cons c rules => exact ha.alt_left.mono (by omega)
    | succ n =>
      rw [List.take_succ_cons, List.all_cons, Bool.and_eq_true] at h
      have hrest := ih (by simpa using hn) h.2
      cases rules with
      | nil => simp at hn
      | cons c rules => exact (Reads.alt_right (fails_of_refuses hv h.1) hrest).mono (by omega)

end EloquentEntity.Syntax

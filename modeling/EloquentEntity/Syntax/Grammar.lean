import EloquentEntity.Syntax.Tree

/-!
Grammars as data, and recognising a token list by one.

A rule is an ordered choice, a sequence or a repetition of conditions on tokens. Choices are tried
in order and the first that matches is taken for good. What a rule reads is decided by the
lexemes alone: gaps go into the tree and are never looked at.
-/

namespace EloquentEntity.Syntax

/-- A rule over the rule names `σ`. -/
inductive Rule (σ : Type) where
  /-- Reads nothing. -/
  | empty
  /-- Matches nowhere. -/
  | never
  /-- Reads one token. -/
  | token (p : Pattern)
  /-- Reads nothing, where such a token is next. -/
  | ahead (p : Pattern)
  /-- Reads nothing, where no such token is next. -/
  | notAhead (p : Pattern)
  | seq (a b : Rule σ)
  /-- The second only where the first does not match. -/
  | alt (a b : Rule σ)
  /-- As often as it matches. -/
  | many (a : Rule σ)
  /-- Puts what is read under a node. -/
  | node (k : Kind) (a : Rule σ)
  /-- Puts what is read under a node, unless it is a single tree. -/
  | several (k : Kind) (a : Rule σ)
  /-- Reads a tree, then goes on from it: the rule for the tree's kind reads a node, whose first
  child the tree becomes, and so on from that node. -/
  | grow (a : Rule σ) (next : Kind → Rule σ)
  /-- Goes on from a tree that has been read. -/
  | growFrom (t : Tree) (next : Kind → Rule σ)
  /-- The rule of that name. -/
  | ref (s : σ)

inductive Outcome where
  | read (trees : List Tree) (rest : List Token)
  | failed
  | outOfFuel
  deriving Inhabited

namespace Outcome

def andThen (o : Outcome) (f : List Tree → List Token → Outcome) : Outcome :=
  match o with
  | read ts rest => f ts rest
  | failed => failed
  | outOfFuel => outOfFuel

def orElse (o : Outcome) (f : Unit → Outcome) : Outcome :=
  match o with
  | failed => f ()
  | o => o

/-- Puts trees in front of those that were read. -/
def after (o : Outcome) (ts : List Tree) : Outcome :=
  o.andThen fun us rest => read (ts ++ us) rest

end Outcome

/-- The tree under one node, or the node's only child. -/
def Tree.gather (k : Kind) : List Tree → Tree
  | [t] => t
  | ts => .node k ts

variable {σ : Type}

/-- Reads a rule of a grammar from the front of a token list. -/
def Rule.run (grammar : σ → Rule σ) : Nat → Rule σ → List Token → Outcome
  | 0, _, _ => .outOfFuel
  | fuel + 1, rule, input =>
    match rule with
    | .empty => .read [] input
    | .never => .failed
    | .token p =>
      match input with
      | [] => .failed
      | t :: rest => if p.accepts t.lexeme then .read [.leaf t] rest else .failed
    | .ahead p =>
      match input with
      | [] => .failed
      | t :: _ => if p.accepts t.lexeme then .read [] input else .failed
    | .notAhead p =>
      match input with
      | [] => .read [] input
      | t :: _ => if p.accepts t.lexeme then .failed else .read [] input
    | .seq a b =>
      (a.run grammar fuel input).andThen fun ts rest => (b.run grammar fuel rest).after ts
    | .alt a b => (a.run grammar fuel input).orElse fun _ => b.run grammar fuel input
    | .many a =>
      ((a.run grammar fuel input).andThen fun ts rest =>
        ((Rule.many a).run grammar fuel rest).after ts).orElse fun _ => .read [] input
    | .node k a => (a.run grammar fuel input).andThen fun ts rest => .read [.node k ts] rest
    | .several k a =>
      (a.run grammar fuel input).andThen fun ts rest => .read [Tree.gather k ts] rest
    | .grow a next =>
      (a.run grammar fuel input).andThen fun ts rest =>
        match ts with
        | [t] => (Rule.growFrom t next).run grammar fuel rest
        | ts => .read ts rest
    | .growFrom t next =>
      match t with
      | .leaf _ => .read [t] input
      | .node k _ =>
        ((next k).run grammar fuel input).andThen (fun ts rest =>
          match ts with
          | [.node k' cs] => (Rule.growFrom (.node k' (t :: cs)) next).run grammar fuel rest
          | _ => .failed) |>.orElse fun _ => .read [t] input
    | .ref s => (grammar s).run grammar fuel input

namespace Rule

def all : List (Rule σ) → Rule σ
  | [] => .empty
  | [a] => a
  | a :: as => .seq a (all as)

def oneOf : List (Rule σ) → Rule σ
  | [] => .never
  | [a] => a
  | a :: as => .alt a (oneOf as)

def opt (a : Rule σ) : Rule σ := .alt a .empty

def many1 (a : Rule σ) : Rule σ := .seq a (.many a)

def sym (s : String) : Rule σ := .token (.symbol s)

def kw (w : String) : Rule σ := .token (.keyword w)

def oneSym (ss : List String) : Rule σ := oneOf (ss.map sym)

def oneKw (ws : List String) : Rule σ := oneOf (ws.map kw)

def kind (k : TokenKind) : Rule σ := .token (.kind k)

def commaList (a : Rule σ) : Rule σ := .seq a (.many (.seq (sym ",") a))

end Rule

end EloquentEntity.Syntax

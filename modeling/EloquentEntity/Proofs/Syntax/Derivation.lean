import EloquentEntity.Proofs.Syntax.Grammar
import EloquentEntity.Proofs.Syntax.Tree

/-!
How the trees that a rule reads are put together.

A derivation tells of one reading how each part was read. It leaves out what was tried before
without success, so that there may be derivations of what is never read; but whatever is read has
one, and what holds of all derivations holds of all readings.
-/

namespace EloquentEntity.Syntax

variable {σ : Type}

/-- The rule reads these trees off the front of the list and leaves this rest, whatever may have
been tried before. -/
inductive Derives (grammar : σ → Rule σ) :
    Rule σ → List Token → List Tree → List Token → Prop
  | empty {ts} : Derives grammar .empty ts [] ts
  | token {p t ts} : p.accepts t.lexeme = true → Derives grammar (.token p) (t :: ts) [.leaf t] ts
  | ahead {p ts} : Derives grammar (.ahead p) ts [] ts
  | notAhead {p ts} : Derives grammar (.notAhead p) ts [] ts
  | seq {a b ts us ts' vs ts''} : Derives grammar a ts us ts' → Derives grammar b ts' vs ts'' →
      Derives grammar (.seq a b) ts (us ++ vs) ts''
  | left {a b ts us ts'} : Derives grammar a ts us ts' → Derives grammar (.alt a b) ts us ts'
  | right {a b ts us ts'} : Derives grammar b ts us ts' → Derives grammar (.alt a b) ts us ts'
  | stop {a ts} : Derives grammar (.many a) ts [] ts
  | more {a ts us ts' vs ts''} : Derives grammar a ts us ts' →
      Derives grammar (.many a) ts' vs ts'' → Derives grammar (.many a) ts (us ++ vs) ts''
  | node {k a ts us ts'} : Derives grammar a ts us ts' →
      Derives grammar (.node k a) ts [.node k us] ts'
  | several {k a ts us ts'} : Derives grammar a ts us ts' →
      Derives grammar (.several k a) ts [Tree.gather k us] ts'
  | grow {a next ts t ts' us ts''} : Derives grammar a ts [t] ts' →
      Derives grammar (.growFrom t next) ts' us ts'' → Derives grammar (.grow a next) ts us ts''
  | growNone {a next ts us ts'} : Derives grammar a ts us ts' →
      Derives grammar (.grow a next) ts us ts'
  | grown {t next ts} : Derives grammar (.growFrom t next) ts [t] ts
  | growOn {k cs next ts k' vs ts' us ts''} : Derives grammar (next k) ts [.node k' vs] ts' →
      Derives grammar (.growFrom (.node k' (.node k cs :: vs)) next) ts' us ts'' →
      Derives grammar (.growFrom (.node k cs) next) ts us ts''
  | ref {s ts us ts'} : Derives grammar (grammar s) ts us ts' → Derives grammar (.ref s) ts us ts'

namespace Outcome

variable {o : Outcome} {f : List Tree → List Token → Outcome} {g : Unit → Outcome}
  {us : List Tree} {ts : List Token}

lemma andThen_eq_read (h : o.andThen f = .read us ts) :
    ∃ vs ts', o = .read vs ts' ∧ f vs ts' = .read us ts := by
  cases o with
  | read vs ts' => exact ⟨vs, ts', rfl, h⟩
  | failed => cases h
  | outOfFuel => cases h

lemma orElse_eq_read (h : o.orElse g = .read us ts) :
    o = .read us ts ∨ (o = .failed ∧ g () = .read us ts) := by
  cases o with
  | read vs ts' => exact .inl h
  | failed => exact .inr ⟨rfl, h⟩
  | outOfFuel => cases h

end Outcome

open Outcome

variable {grammar : σ → Rule σ}

/-- How a reading is made of readings one level deeper. -/
inductive OneStep (grammar : σ → Rule σ) (n : Nat) :
    Rule σ → List Token → List Tree → List Token → Prop
  | empty {ts} : OneStep grammar n .empty ts [] ts
  | token {p t ts} : p.accepts t.lexeme = true →
      OneStep grammar n (.token p) (t :: ts) [.leaf t] ts
  | ahead {p ts} : OneStep grammar n (.ahead p) ts [] ts
  | notAhead {p ts} : OneStep grammar n (.notAhead p) ts [] ts
  | seq {a b ts us ts' vs ts''} : Reads grammar n a ts us ts' → Reads grammar n b ts' vs ts'' →
      OneStep grammar n (.seq a b) ts (us ++ vs) ts''
  | left {a b ts us ts'} : Reads grammar n a ts us ts' → OneStep grammar n (.alt a b) ts us ts'
  | right {a b ts us ts'} : Fails grammar n a ts → Reads grammar n b ts us ts' →
      OneStep grammar n (.alt a b) ts us ts'
  | stop {a ts} : OneStep grammar n (.many a) ts [] ts
  | more {a ts us ts' vs ts''} : Reads grammar n a ts us ts' →
      Reads grammar n (.many a) ts' vs ts'' → OneStep grammar n (.many a) ts (us ++ vs) ts''
  | node {k a ts us ts'} : Reads grammar n a ts us ts' →
      OneStep grammar n (.node k a) ts [.node k us] ts'
  | several {k a ts us ts'} : Reads grammar n a ts us ts' →
      OneStep grammar n (.several k a) ts [Tree.gather k us] ts'
  | grow {a next ts t ts' us ts''} : Reads grammar n a ts [t] ts' →
      Reads grammar n (.growFrom t next) ts' us ts'' → OneStep grammar n (.grow a next) ts us ts''
  | growNone {a next ts us ts'} : Reads grammar n a ts us ts' → (∀ t, us ≠ [t]) →
      OneStep grammar n (.grow a next) ts us ts'
  | grown {t next ts} : OneStep grammar n (.growFrom t next) ts [t] ts
  | growOn {k cs next ts k' vs ts' us ts''} : Reads grammar n (next k) ts [.node k' vs] ts' →
      Reads grammar n (.growFrom (.node k' (.node k cs :: vs)) next) ts' us ts'' →
      OneStep grammar n (.growFrom (.node k cs) next) ts us ts''
  | ref {s ts us ts'} : Reads grammar n (grammar s) ts us ts' → OneStep grammar n (.ref s) ts us ts'

/-- A reading is taken apart once, and here only. -/
lemma Reads.oneStep {n : Nat} {a : Rule σ} {ts ts' : List Token} {us : List Tree}
    (h : Reads grammar (n + 1) a ts us ts') : OneStep grammar n a ts us ts' := by
  cases a with
  | empty =>
    cases h
    exact .empty
  | never => cases h
  | token p =>
    cases ts with
    | nil => cases h
    | cons t ts =>
      rw [Reads, Rule.run_token_cons] at h
      split at h
      · next hp =>
        cases h
        exact .token hp
      · cases h
  | ahead p =>
    cases ts with
    | nil => cases h
    | cons t ts =>
      rw [Reads, Rule.run_ahead_cons] at h
      split at h <;> cases h
      exact .ahead
  | notAhead p =>
    cases ts with
    | nil =>
      cases h
      exact .notAhead
    | cons t ts =>
      rw [Reads, Rule.run_notAhead_cons] at h
      split at h <;> cases h
      exact .notAhead
  | seq a b =>
    obtain ⟨vs, ts₁, ha, h⟩ := andThen_eq_read h
    obtain ⟨ws, ts₂, hb, h⟩ := andThen_eq_read h
    cases h
    exact .seq ha hb
  | alt a b =>
    rw [Reads, Rule.run_alt] at h
    rcases orElse_eq_read h with ha | ⟨ha, hb⟩
    · exact .left ha
    · exact .right ha hb
  | many a =>
    -- Either one more reading and the rest, or the end where the rule fails.
    rw [Reads, Rule.run_many] at h
    rcases orElse_eq_read h with h | ⟨-, h⟩
    · obtain ⟨vs, ts₁, ha, h⟩ := andThen_eq_read h
      obtain ⟨ws, ts₂, hb, h⟩ := andThen_eq_read h
      cases h
      exact .more ha hb
    · cases h
      exact .stop
  | node k a =>
    obtain ⟨vs, ts₁, ha, h⟩ := andThen_eq_read h
    cases h
    exact .node ha
  | several k a =>
    obtain ⟨vs, ts₁, ha, h⟩ := andThen_eq_read h
    cases h
    exact .several ha
  | grow a next =>
    -- Only a single tree grows.
    obtain ⟨vs, ts₁, ha, h⟩ := andThen_eq_read h
    split at h
    · exact .grow ha h
    · next hne =>
      cases h
      exact .growNone ha hne
  | growFrom t next =>
    -- A token does not grow; a node goes on if the next rule reads a single node.
    cases t with
    | leaf t =>
      cases h
      exact .grown
    | node k cs =>
      rw [Reads, Rule.run_growFrom_node] at h
      rcases orElse_eq_read h with h | ⟨-, h⟩
      · obtain ⟨vs, ts₁, ha, h⟩ := andThen_eq_read h
        split at h
        · exact .growOn ha h
        · cases h
      · cases h
        exact .grown
  | ref s => exact .ref h

/-- Whatever is read has a derivation. -/
lemma derives_of_run {n : Nat} {a : Rule σ} {ts ts' : List Token} {us : List Tree}
    (h : Reads grammar n a ts us ts') : Derives grammar a ts us ts' := by
  induction n generalizing a ts us ts' with
  | zero => cases h
  | succ n ih =>
    cases h.oneStep with
    | empty => exact .empty
    | token hp => exact .token hp
    | ahead => exact .ahead
    | notAhead => exact .notAhead
    | seq ha hb => exact .seq (ih ha) (ih hb)
    | left ha => exact .left (ih ha)
    | right _ hb => exact .right (ih hb)
    | stop => exact .stop
    | more ha hmore => exact .more (ih ha) (ih hmore)
    | node ha => exact .node (ih ha)
    | several ha => exact .several (ih ha)
    | grow ha hnext => exact .grow (ih ha) (ih hnext)
    | growNone ha => exact .growNone (ih ha)
    | grown => exact .grown
    | growOn hstep hnext => exact .growOn (ih hstep) (ih hnext)
    | ref ha => exact .ref (ih ha)

/-! ### Trees of a shape -/

namespace Tree

variable {S : Kind → List Tree → Prop} {k : Kind} {cs : List Tree} {t : Tree}

/-- Every node in the tree has children as `S` says. -/
def Shaped (S : Kind → List Tree → Prop) (t : Tree) : Prop :=
  ∀ k cs, .node k cs ∈ t.preorder → S k cs

lemma shaped_leaf (S : Kind → List Tree → Prop) (t : Token) : Shaped S (.leaf t) := by
  intro k cs h
  simp [preorder] at h

lemma shaped_node (hS : S k cs) (h : ∀ t ∈ cs, Shaped S t) : Shaped S (.node k cs) := by
  intro k' cs' hm
  rw [preorder, List.mem_cons, mem_preorderAll_iff] at hm
  rcases hm with he | ⟨t, ht, hm⟩
  · cases he
    exact hS
  · exact h t ht k' cs' hm

lemma Shaped.child (h : Shaped S (.node k cs)) (ht : t ∈ cs) : Shaped S t := by
  intro k' cs' hm
  refine h k' cs' ?_
  rw [preorder, List.mem_cons, mem_preorderAll_iff]
  exact .inr ⟨t, ht, hm⟩

lemma shaped_gather (hS : S k cs) (h : ∀ t ∈ cs, Shaped S t) : Shaped S (gather k cs) := by
  rw [gather.eq_def]
  split
  · exact h _ (by simp)
  · exact shaped_node hS h

end Tree

open Syntax.Tree

/-! ### What is checked of a grammar -/

def Kind.all : List Kind := (List.range 67).map Kind.ofNat

lemma Kind.mem_all (k : Kind) : k ∈ Kind.all := by cases k <;> decide

namespace Rule

/-- Whatever the rule reads is a single node of one of these kinds. -/
def steps (kinds : Kind → Bool) : Rule σ → Bool
  | .never => true
  | .node k _ => kinds k
  | .alt a b => a.steps kinds && b.steps kinds
  | _ => false

/-- All nodes in the rule are made of what `ok` accepts. Nodes that grow, whose first child is none
that was read for them, are of the kinds `free`. -/
def check (ok : Kind → Rule σ → Bool) (free : Kind → Bool) : Rule σ → Bool
  | .seq a b | .alt a b => a.check ok free && b.check ok free
  | .many a => a.check ok free
  | .node k a | .several k a => ok k a && a.check ok free
  | .grow a next =>
    a.check ok free && Kind.all.all fun k => (next k).steps free && (next k).check ok free
  | .growFrom _ _ => false
  | _ => true

/-- The rule is checked, and nothing has been read for it yet, or this tree. -/
inductive Started (ok : Kind → Rule σ → Bool) (free : Kind → Bool) :
    Rule σ → List Tree → Prop
  | fresh {a} : a.check ok free = true → Started ok free a []
  | begun {t next} :
      (∀ k, (next k).steps free = true ∧ (next k).check ok free = true) →
      Started ok free (.growFrom t next) [t]

end Rule

lemma tokensAll_append (us vs : List Tree) :
    tokensAll (us ++ vs) = tokensAll us ++ tokensAll vs := by
  induction us with
  | nil => rfl
  | cons u us ih => rw [List.cons_append, tokensAll, tokensAll, ih, List.append_assoc]

lemma tokens_gather (k : Kind) (us : List Tree) : (Tree.gather k us).tokens = tokensAll us := by
  rcases us with _ | ⟨u, _ | ⟨v, us⟩⟩
  · rfl
  · simp [Tree.gather, tokensAll]
  · rfl

section Checked

variable {ok : Kind → Rule σ → Bool} {free : Kind → Bool} {S : Kind → List Tree → Prop}
  {a b : Rule σ} {next : Kind → Rule σ} {k : Kind} {n : Nat}
  {ts ts' : List Token} {held us vs : List Tree}

namespace Rule

lemma check_seq (h : (seq a b).check ok free = true) :
    a.check ok free = true ∧ b.check ok free = true := by
  simpa only [check, Bool.and_eq_true] using h

lemma check_node (h : (node k a).check ok free = true) :
    ok k a = true ∧ a.check ok free = true := by
  simpa only [check, Bool.and_eq_true] using h

lemma check_grow (h : (grow a next).check ok free = true) :
    a.check ok free = true ∧
      ∀ k, (next k).steps free = true ∧ (next k).check ok free = true := by
  simp only [check, Bool.and_eq_true, List.all_eq_true] at h
  exact ⟨h.1, fun k => h.2 k k.mem_all⟩

end Rule

open Rule

/-- What is read is what was there: the trees hold the tokens in order. -/
lemma Derives.tokens_eq (hg : ∀ s, (grammar s).check ok free = true)
    (h : Derives grammar a ts us ts') (ha : a.Started ok free held) :
    tokensAll held ++ ts = tokensAll us ++ ts' := by
  induction h generalizing held with
  | empty | ahead | notAhead | stop | token =>
    cases ha
    rfl
  | seq _ _ iha ihb =>
    obtain ⟨ha⟩ := ha
    have hb := ihb (.fresh (check_seq ha).2)
    rw [tokensAll_append, List.append_assoc, ← hb]
    exact iha (.fresh (check_seq ha).1)
  | left _ ih =>
    obtain ⟨ha⟩ := ha
    exact ih (.fresh (check_seq ha).1)
  | right _ ih =>
    obtain ⟨ha⟩ := ha
    exact ih (.fresh (check_seq ha).2)
  | more _ _ iha ihb =>
    obtain ⟨ha⟩ := ha
    have hb := ihb (.fresh ha)
    rw [tokensAll_append, List.append_assoc, ← hb]
    exact iha (.fresh ha)
  | node _ ih =>
    obtain ⟨ha⟩ := ha
    have := ih (.fresh (check_node ha).2)
    simpa [tokensAll, tokens] using this
  | several _ ih =>
    obtain ⟨ha⟩ := ha
    have := ih (.fresh (check_node ha).2)
    simpa [tokensAll, tokens_gather] using this
  | grow _ _ iha ihb =>
    obtain ⟨ha⟩ := ha
    have hb := ihb (.begun (check_grow ha).2)
    rw [← hb]
    exact iha (.fresh (check_grow ha).1)
  | growNone _ ih =>
    obtain ⟨ha⟩ := ha
    exact ih (.fresh (check_grow ha).1)
  | grown =>
    cases ha with
    | fresh ha => cases ha
    | begun _ => rfl
  | growOn _ _ iha ihb =>
    -- The tree that is held becomes the first child, so its tokens come first.
    cases ha with
    | fresh ha => cases ha
    | begun ha =>
      have hb := ihb (.begun ha)
      have hstep := iha (.fresh (ha _).2)
      rw [← hb]
      simpa [tokensAll, tokens] using hstep
  | ref _ ih =>
    cases ha
    exact ih (.fresh (hg _))

lemma Derives.free_of_steps (h : Derives grammar a ts us ts') (ha : a.steps free = true)
    {cs : List Tree} (hm : .node k cs ∈ us) : free k = true := by
  induction h with
  | node =>
    obtain ⟨rfl, -⟩ : k = _ ∧ _ := by simpa using hm
    exact ha
  | left _ ih =>
    simp only [steps, Bool.and_eq_true] at ha
    exact ih ha.1 hm
  | right _ ih =>
    simp only [steps, Bool.and_eq_true] at ha
    exact ih ha.2 hm
  | _ => cases ha

/-- Rules that are made of what `ok` accepts read trees of the shape that it stands for. -/
lemma shaped_of_run (hg : ∀ s, (grammar s).check ok free = true)
    (hok : ∀ {k a n ts us ts'}, ok k a = true → Reads grammar n a ts us ts' → S k us)
    (hfree : ∀ {k}, free k = true → ∀ cs, S k cs)
    (h : Reads grammar n a ts us ts') (ha : a.Started ok free held)
    (hheld : ∀ u ∈ held, Shaped S u) : ∀ u ∈ us, Shaped S u := by
  induction n generalizing a ts us ts' held with
  | zero => cases h
  | succ n ih =>
    cases h.oneStep with
    | empty | ahead | notAhead | stop => simp
    | token => exact List.forall_mem_singleton.mpr (shaped_leaf S _)
    | seq hfirst hsecond =>
      obtain ⟨ha⟩ := ha
      exact List.forall_mem_append.mpr ⟨ih hfirst (.fresh (check_seq ha).1) hheld,
        ih hsecond (.fresh (check_seq ha).2) hheld⟩
    | left hfirst =>
      obtain ⟨ha⟩ := ha
      exact ih hfirst (.fresh (check_seq ha).1) hheld
    | right _ hsecond =>
      obtain ⟨ha⟩ := ha
      exact ih hsecond (.fresh (check_seq ha).2) hheld
    | more hfirst hmore =>
      obtain ⟨ha⟩ := ha
      exact List.forall_mem_append.mpr ⟨ih hfirst (.fresh ha) hheld, ih hmore (.fresh ha) hheld⟩
    | node hbody =>
      obtain ⟨ha⟩ := ha
      exact List.forall_mem_singleton.mpr (shaped_node (hok (check_node ha).1 hbody)
        (ih hbody (.fresh (check_node ha).2) hheld))
    | several hbody =>
      obtain ⟨ha⟩ := ha
      exact List.forall_mem_singleton.mpr (shaped_gather (hok (check_node ha).1 hbody)
        (ih hbody (.fresh (check_node ha).2) hheld))
    | grow hfirst hnext =>
      obtain ⟨ha⟩ := ha
      exact ih hnext (.begun (check_grow ha).2) (ih hfirst (.fresh (check_grow ha).1) hheld)
    | growNone hfirst =>
      obtain ⟨ha⟩ := ha
      exact ih hfirst (.fresh (check_grow ha).1) hheld
    | grown =>
      cases ha with
      | fresh ha => cases ha
      | begun _ => exact hheld
    | growOn hstep hnext =>
      -- The tree that is held becomes the first child of the new node.
      cases ha with
      | fresh ha => cases ha
      | begun ha =>
        refine ih hnext (.begun ha) (List.forall_mem_singleton.mpr ?_)
        have hnew := ih hstep (.fresh (ha _).2) (by simp) _ (List.mem_singleton_self _)
        have hk := (derives_of_run hstep).free_of_steps (ha _).1 (List.mem_singleton_self _)
        exact shaped_node (hfree hk _) (List.forall_mem_cons.mpr
          ⟨hheld _ (List.mem_singleton_self _), fun u hu => hnew.child hu⟩)
    | ref hbody => exact ih hbody (.fresh (hg _)) (by simp)

end Checked

end EloquentEntity.Syntax

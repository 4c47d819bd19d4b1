import EloquentEntity.Proofs.Syntax.Names

/-!
The rules behind the nodes of a tree.

A node of a kind is read by a rule that the grammar has for that kind. So what can be in the node is
found by taking the reading of that rule apart, from its first token on: a reading is the only one
of its rule there, and which of two alternatives was taken is often told by the next token.
-/

namespace EloquentEntity.Syntax

open Syntax.Tree

variable {σ : Type} {grammar : σ → Rule σ} {i j n : Nat} {a b : Rule σ} {p : Pattern} {t : Token}
  {k : Kind} {ts ts' rest rest' : List Token} {us vs : List Tree}

/-! ### Taking readings apart -/

lemma Reads.unique (h : Reads grammar i a ts us rest) (h' : Reads grammar j a ts vs rest') :
    vs = us ∧ rest' = rest := by
  have h := h.mono (Nat.le_max_left i j)
  have h' := h'.mono (Nat.le_max_right i j)
  rw [Reads] at h h'
  rw [h] at h'
  cases h'
  exact ⟨rfl, rfl⟩

lemma Reads.not_fails (h : Reads grammar i a ts us rest) : ¬ Fails grammar j a ts := by
  intro h'
  have h := h.mono (Nat.le_max_left i j)
  have h' := h'.mono (Nat.le_max_right i j)
  rw [Reads] at h
  rw [Fails, h] at h'
  cases h'

lemma Reads.exists_oneStep (h : Reads grammar n a ts us rest) :
    ∃ m < n, OneStep grammar m a ts us rest := by
  cases n with
  | zero => cases h
  | succ m => exact ⟨m, by omega, h.oneStep⟩

lemma Reads.seq_cases (h : Reads grammar n (.seq a b) ts us rest) :
    ∃ m vs ts' ws, Reads grammar m a ts vs ts' ∧ Reads grammar m b ts' ws rest ∧ us = vs ++ ws := by
  obtain ⟨m, -, h⟩ := h.exists_oneStep
  cases h with
  | seq ha hb => exact ⟨m, _, _, _, ha, hb, rfl⟩

lemma Reads.alt_cases (h : Reads grammar n (.alt a b) ts us rest) :
    ∃ m, Reads grammar m a ts us rest ∨ (Fails grammar m a ts ∧ Reads grammar m b ts us rest) := by
  obtain ⟨m, -, h⟩ := h.exists_oneStep
  cases h with
  | left ha => exact ⟨m, .inl ha⟩
  | right ha hb => exact ⟨m, .inr ⟨ha, hb⟩⟩

lemma Reads.many_cases (h : Reads grammar n (.many a) ts us rest) :
    (us = [] ∧ rest = ts) ∨ ∃ m vs ts' ws, Reads grammar m a ts vs ts' ∧
      Reads grammar m (.many a) ts' ws rest ∧ us = vs ++ ws ∧ m < n := by
  obtain ⟨m, hm, h⟩ := h.exists_oneStep
  cases h with
  | stop => exact .inl ⟨rfl, rfl⟩
  | more ha hmore => exact .inr ⟨m, _, _, _, ha, hmore, rfl, hm⟩

lemma Reads.node_cases (h : Reads grammar n (.node k a) ts us rest) :
    ∃ m vs, Reads grammar m a ts vs rest ∧ us = [.node k vs] := by
  obtain ⟨m, -, h⟩ := h.exists_oneStep
  cases h with
  | node ha => exact ⟨m, _, ha, rfl⟩

lemma Reads.token_cases (h : Reads grammar n (.token p) ts us rest) :
    ∃ t, ts = t :: rest ∧ us = [.leaf t] ∧ p.accepts t.lexeme = true := by
  obtain ⟨m, -, h⟩ := h.exists_oneStep
  cases h with
  | token hp => exact ⟨_, rfl, rfl, hp⟩

lemma Reads.ahead_cases (h : Reads grammar n (.ahead p) ts us rest) : us = [] ∧ rest = ts := by
  cases derives_of_run h
  exact ⟨rfl, rfl⟩

lemma Reads.notAhead_cases (h : Reads grammar n (.notAhead p) ts us rest) :
    us = [] ∧ rest = ts := by
  cases derives_of_run h
  exact ⟨rfl, rfl⟩

lemma Reads.opt_cases (h : Reads grammar n (Rule.opt a) ts us rest) :
    (∃ m, Reads grammar m a ts us rest) ∨ (us = [] ∧ rest = ts ∧ ∃ m, Fails grammar m a ts) := by
  obtain ⟨m, h | ⟨hfails, h⟩⟩ := h.alt_cases
  · exact .inl ⟨m, h⟩
  · cases derives_of_run h
    exact .inr ⟨rfl, rfl, m, hfails⟩

lemma Reads.several_cases (h : Reads grammar n (.several k a) ts us rest) :
    ∃ m vs, Reads grammar m a ts vs rest ∧ us = [Tree.gather k vs] := by
  obtain ⟨m, -, h⟩ := h.exists_oneStep
  cases h with
  | several ha => exact ⟨m, _, ha, rfl⟩

lemma Reads.grow_cases {next : Kind → Rule σ} (h : Reads grammar n (.grow a next) ts us rest) :
    ∃ m vs ts', Reads grammar m a ts vs ts' ∧
      ∀ t, vs = [t] → Reads grammar m (.growFrom t next) ts' us rest := by
  obtain ⟨m, -, h⟩ := h.exists_oneStep
  cases h with
  | grow ha hnext =>
    refine ⟨m, _, _, ha, ?_⟩
    rintro t ⟨⟩
    exact hnext
  | growNone ha hne => exact ⟨m, _, _, ha, fun t ht => absurd ht (hne t)⟩

/-- A tree stays as it is, or it becomes the first child of a node that goes on. -/
lemma Reads.growFrom_cases {next : Kind → Rule σ} {cs : List Tree}
    (h : Reads grammar n (.growFrom (.node k cs) next) ts us rest) :
    (us = [.node k cs] ∧ rest = ts) ∨ ∃ m k' vs ts', Reads grammar m (next k) ts [.node k' vs] ts' ∧
      Reads grammar m (.growFrom (.node k' (.node k cs :: vs)) next) ts' us rest := by
  obtain ⟨m, -, h⟩ := h.exists_oneStep
  cases h with
  | grown => exact .inl ⟨rfl, rfl⟩
  | growOn hstep hmore => exact .inr ⟨m, _, _, _, hstep, hmore⟩

lemma Reads.ref_cases {s : σ} (h : Reads grammar n (.ref s) ts us rest) :
    ∃ m, Reads grammar m (grammar s) ts us rest := by
  obtain ⟨m, -, h⟩ := h.exists_oneStep
  cases h with
  | ref ha => exact ⟨m, ha⟩

lemma Reads.many_induction {P : List Tree → Prop} (hnil : P [])
    (hcons : ∀ {m ts us rest vs}, Reads grammar m a ts us rest → P vs → P (us ++ vs))
    (h : Reads grammar n (.many a) ts us rest) : P us := by
  induction n using Nat.strong_induction_on generalizing ts us with
  | _ n ih =>
    rcases h.many_cases with ⟨rfl, -⟩ | ⟨m, vs, ts', ws, ha, hmore, rfl, hm⟩
    · exact hnil
    · exact hcons ha (ih m hm hmore)

/-! ### Kinds that a rule does without -/

/-- The rule has no nodes of these kinds and calls no other rules. -/
def Rule.avoids (ks : List Kind) : Rule σ → Bool
  | .empty | .never | .token _ | .ahead _ | .notAhead _ => true
  | .seq a b | .alt a b => a.avoids ks && b.avoids ks
  | .many a => a.avoids ks
  | .node k a => !ks.contains k && a.avoids ks
  | _ => false

lemma Derives.free {ks : List Kind} (h : Derives grammar a ts us rest)
    (ha : a.avoids ks = true) : ∀ u ∈ us, Free ks u := by
  induction h with
  | empty | ahead | notAhead | stop => simp
  | token => exact List.forall_mem_singleton.mpr (free_leaf ks _)
  | seq _ _ iha ihb =>
    simp only [Rule.avoids, Bool.and_eq_true] at ha
    exact List.forall_mem_append.mpr ⟨iha ha.1, ihb ha.2⟩
  | left _ ih =>
    simp only [Rule.avoids, Bool.and_eq_true] at ha
    exact ih ha.1
  | right _ ih =>
    simp only [Rule.avoids, Bool.and_eq_true] at ha
    exact ih ha.2
  | more _ _ iha ihb => exact List.forall_mem_append.mpr ⟨iha ha, ihb ha⟩
  | node _ ih =>
    simp only [Rule.avoids, Bool.and_eq_true] at ha
    exact List.forall_mem_singleton.mpr (free_node (by simpa using ha.1) (ih ha.2))
  | _ => cases ha

/-! ### Rules that read something -/

def Rule.consumes : Rule σ → Bool
  | .token _ | .never => true
  | .seq a b => a.consumes || b.consumes
  | .alt a b => a.consumes && b.consumes
  | .node _ a | .several _ a | .grow a _ => a.consumes
  | _ => false

lemma Derives.length_le (h : Derives grammar a ts us rest) : rest.length ≤ ts.length := by
  induction h with
  | token => simp
  | seq _ _ iha ihb | more _ _ iha ihb | grow _ _ iha ihb | growOn _ _ iha ihb => omega
  | left _ ih | right _ ih | node _ ih | several _ ih | growNone _ ih | ref _ ih => exact ih
  | _ => exact le_rfl

lemma Derives.length_lt (h : Derives grammar a ts us rest) (ha : a.consumes = true) :
    rest.length < ts.length := by
  induction h with
  | token => simp
  | seq h h' iha ihb =>
    have := h.length_le
    have := h'.length_le
    rw [Rule.consumes, Bool.or_eq_true] at ha
    rcases ha with ha | hb
    · have := iha ha
      omega
    · have := ihb hb
      omega
  | left _ ih =>
    rw [Rule.consumes, Bool.and_eq_true] at ha
    exact ih ha.1
  | right _ ih =>
    rw [Rule.consumes, Bool.and_eq_true] at ha
    exact ih ha.2
  | node _ ih | several _ ih | growNone _ ih => exact ih ha
  | grow _ h' ih _ =>
    have := ih ha
    have := h'.length_le
    omega
  | _ => cases ha

lemma Reads.many_nil (h : Reads grammar n (.many a) ts us rest) (ha : a.consumes = true)
    (hlength : ts.length ≤ rest.length) : us = [] := by
  rcases h.many_cases with ⟨rfl, -⟩ | ⟨m, vs, ts', ws, hfirst, hmore, rfl, -⟩
  · rfl
  · have := (derives_of_run hfirst).length_lt ha
    have := (derives_of_run hmore).length_le
    omega

lemma Reads.growFrom_nil {next : Kind → Rule σ} {cs : List Tree}
    (h : Reads grammar n (.growFrom (.node k cs) next) ts us rest)
    (hnext : (next k).consumes = true) (hlength : ts.length ≤ rest.length) : us = [.node k cs] := by
  rcases h.growFrom_cases with ⟨rfl, -⟩ | ⟨m, k', vs, ts', hstep, hmore⟩
  · rfl
  · have := (derives_of_run hstep).length_lt hnext
    have := (derives_of_run hmore).length_le
    omega

/-! ### Rules of kinds -/

namespace Rule

/-- The same rule, in which nothing grows. -/
def same [DecidableEq σ] : Rule σ → Rule σ → Bool
  | .empty, .empty | .never, .never => true
  | .token p, .token q | .ahead p, .ahead q | .notAhead p, .notAhead q => p == q
  | .seq a b, .seq c d | .alt a b, .alt c d => a.same c && b.same d
  | .many a, .many c => a.same c
  | .node k a, .node j c | .several k a, .several j c => k == j && a.same c
  | .ref s, .ref r => s == r
  | _, _ => false

lemma eq_of_same [DecidableEq σ] {a b : Rule σ} (h : a.same b = true) : a = b := by
  fun_induction same a b with
  | case1 | case2 => rfl
  | case3 p q | case4 p q | case5 p q => rw [beq_iff_eq.mp h]
  | case6 a b c d iha ihb | case7 a b c d iha ihb =>
    rw [Bool.and_eq_true] at h
    rw [iha h.1, ihb h.2]
  | case8 a c ih => rw [ih h]
  | case9 k a j c ih | case10 k a j c ih =>
    rw [Bool.and_eq_true, beq_iff_eq] at h
    rw [h.1, ih h.2]
  | case11 s r => rw [beq_iff_eq.mp h]
  | case12 => cases h

def body : Rule σ → Rule σ
  | .node _ a => a
  | a => a

end Rule

namespace Rules

/-- The rules that read the nodes of a kind, for the kinds that are looked into. -/
def bodies : Kind → Option (List PhpRule)
  | .useDeclaration => some [useDeclaration.body]
  | .arrayElement => some [arrayElement.body]
  | _ => none

/-- A node of a kind that is looked into is read by one of the kind's rules. -/
def bodyRule (k : Kind) (a : PhpRule) : Bool := (bodies k).all fun bs => bs.any a.same

lemma check_bodies (s : RuleName) :
    (Rules.grammar s).check bodyRule (fun k => (bodies k).isNone) = true := by
  cases s <;> decide +kernel

lemma check_program_bodies :
    program.check bodyRule (fun k => (bodies k).isNone) = true := by decide +kernel

end Rules

variable {source : String} {root : Tree} {bs : List PhpRule} {cs : List Tree}

/-- **A node is read by a rule of its kind.** -/
lemma reads_of_mem (h : parse source = some root) (hu : .node k cs ∈ root.preorder)
    (hb : Rules.bodies k = some bs) :
    ∃ b ∈ bs, ∃ n ts rest, Reads Rules.grammar n b ts cs rest := by
  have hshaped := shaped_of_run
    (S := fun k cs => ∀ bs, Rules.bodies k = some bs →
      ∃ b ∈ bs, ∃ n ts rest, Reads Rules.grammar n b ts cs rest)
    Rules.check_bodies
    (fun {k a n ts us ts'} ha hrun bs hbs => by
      rw [Rules.bodyRule, hbs, Option.all_some, List.any_eq_true] at ha
      obtain ⟨b, hb, hab⟩ := ha
      obtain rfl := Rule.eq_of_same hab
      exact ⟨a, hb, n, ts, ts', hrun⟩)
    (fun {k} hfree cs bs hbs => by
      rw [hbs] at hfree
      cases hfree)
    (run_of_parse h).choose_spec (.fresh Rules.check_program_bodies) (by simp) root (by simp)
  exact hshaped k cs hu bs hb

end EloquentEntity.Syntax

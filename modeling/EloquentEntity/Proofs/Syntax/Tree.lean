import EloquentEntity.Syntax.Member
import Mathlib.Tactic.Common

/-!
The search of trees in document order, and rows of tokens as trees.
-/

namespace EloquentEntity.Syntax.Tree

/-! ### Document order -/

lemma preorderAll_eq_flatMap (ts : List Tree) : preorderAll ts = ts.flatMap preorder := by
  induction ts with
  | nil => rfl
  | cons t ts ih => rw [preorderAll, ih, List.flatMap_cons]

lemma preorderAll_append (ts us : List Tree) :
    preorderAll (ts ++ us) = preorderAll ts ++ preorderAll us := by
  simp only [preorderAll_eq_flatMap, List.flatMap_append]

lemma sizeAll_append (ts us : List Tree) : sizeAll (ts ++ us) = sizeAll ts + sizeAll us := by
  induction ts with
  | nil => simp [sizeAll]
  | cons t ts ih =>
    rw [List.cons_append, sizeAll, sizeAll, ih]
    omega

/-- The stack holds what is still to be visited, in document order. -/
lemma visit_eq {fuel : Nat} {stack : List Tree} (h : sizeAll stack ≤ fuel) :
    visit fuel stack = preorderAll stack := by
  induction fuel generalizing stack with
  | zero =>
    rcases stack with _ | ⟨_ | _, stack⟩
    · rfl
    · simp [sizeAll, size] at h
    · simp [sizeAll, size] at h
  | succ fuel ih =>
    rcases stack with _ | ⟨t | ⟨k, cs⟩, stack⟩
    · rfl
    · rw [sizeAll, size] at h
      rw [visit, children, List.nil_append, ih (by omega), preorderAll, preorder]
      rfl
    · rw [sizeAll, size] at h
      have hsize : sizeAll (cs ++ stack) ≤ fuel := by
        rw [sizeAll_append]
        omega
      rw [visit, children, ih hsize, preorderAll_append, preorderAll, preorder]
      rfl

lemma walk_eq (t : Tree) : t.walk = t.preorder := by
  rw [walk, visit_eq (by simp [sizeAll]), preorderAll, preorderAll, List.append_nil]

lemma mem_preorderAll_iff {t : Tree} {ts : List Tree} :
    t ∈ preorderAll ts ↔ ∃ u ∈ ts, t ∈ u.preorder := by
  rw [preorderAll_eq_flatMap, List.mem_flatMap]

lemma preorder_eq (t : Tree) : t.preorder = t :: preorderAll t.children := by cases t <;> rfl

lemma mem_preorder_self (t : Tree) : t ∈ t.preorder := by simp [preorder_eq]

lemma mem_preorder_of_preorderAll {t u : Tree} (hu : u ∈ preorderAll t.children) :
    u ∈ t.preorder := by
  rw [preorder_eq]
  exact List.mem_cons_of_mem _ hu

lemma mem_preorderAll_below {t u : Tree} {ts : List Tree} (ht : t ∈ ts)
    (hu : u ∈ preorderAll t.children) : u ∈ preorderAll ts :=
  mem_preorderAll_iff.mpr ⟨t, ht, mem_preorder_of_preorderAll hu⟩

lemma mem_preorder_of_child {t u : Tree} (hu : u ∈ t.children) : u ∈ t.preorder :=
  mem_preorder_of_preorderAll (mem_preorderAll_iff.mpr ⟨u, hu, mem_preorder_self u⟩)

mutual

lemma preorder_trans {u v : Tree} : ∀ {t : Tree}, u ∈ t.preorder → v ∈ u.preorder → v ∈ t.preorder
  | leaf t, hu, hv => by
    obtain rfl : u = leaf t := by simpa [preorder] using hu
    exact hv
  | node k cs, hu, hv => by
    rw [preorder, List.mem_cons] at hu
    rcases hu with rfl | hu
    · exact hv
    · exact List.mem_cons_of_mem _ (preorderAll_trans hu hv)

lemma preorderAll_trans {u v : Tree} :
    ∀ {ts : List Tree}, u ∈ preorderAll ts → v ∈ u.preorder → v ∈ preorderAll ts
  | [], hu, _ => by cases hu
  | t :: ts, hu, hv => by
    rw [preorderAll, List.mem_append] at hu ⊢
    exact hu.imp (preorder_trans · hv) (preorderAll_trans · hv)

end

lemma mem_preorder_child {t u v : Tree} (hu : u ∈ t.preorder) (hv : v ∈ u.children) :
    v ∈ t.preorder :=
  preorder_trans hu (mem_preorder_of_child hv)

mutual

lemma mem_tokens_of_preorder {u : Tree} {x : Token} :
    ∀ {t : Tree}, u ∈ t.preorder → x ∈ u.tokens → x ∈ t.tokens
  | leaf t, hu, hx => by
    obtain rfl : u = leaf t := by simpa [preorder] using hu
    exact hx
  | node k cs, hu, hx => by
    rw [preorder, List.mem_cons] at hu
    rcases hu with rfl | hu
    · exact hx
    · exact mem_tokensAll_of_preorderAll hu hx

lemma mem_tokensAll_of_preorderAll {u : Tree} {x : Token} :
    ∀ {ts : List Tree}, u ∈ preorderAll ts → x ∈ u.tokens → x ∈ tokensAll ts
  | [], hu, _ => by cases hu
  | t :: ts, hu, hx => by
    rw [preorderAll, List.mem_append] at hu
    rw [tokensAll, List.mem_append]
    exact hu.imp (mem_tokens_of_preorder · hx) (mem_tokensAll_of_preorderAll · hx)

end

/-! ### Kinds that a tree is free of -/

/-- No tree of these kinds is found. -/
def Free (ks : List Kind) (t : Tree) : Prop := ∀ u ∈ t.preorder, u.isOneOf ks = false

variable {k k' : Kind} {ks : List Kind} {t : Tree} {ts : List Tree}

lemma free_leaf (ks : List Kind) (t : Token) : Free ks (.leaf t) := by
  intro u hu
  obtain rfl : u = .leaf t := by simpa [preorder] using hu
  simp [isOneOf, is, kind?]

lemma free_node (hk : k ∉ ks) (h : ∀ t ∈ ts, Free ks t) : Free ks (.node k ts) := by
  intro u hu
  rw [preorder, List.mem_cons, mem_preorderAll_iff] at hu
  rcases hu with rfl | ⟨t, ht, hu⟩
  · rw [isOneOf, List.any_eq_false]
    rintro j hj
    have hkj : k ≠ j := fun h => hk (h ▸ hj)
    simpa [is, kind?] using hkj
  · exact h t ht u hu

lemma Free.is_eq_false (h : Free ks t) (hk : k ∈ ks) {u : Tree} (hu : u ∈ t.preorder) :
    u.is k = false := by
  have hu := h u hu
  rw [isOneOf, List.any_eq_false] at hu
  simpa using hu k hk

/-- What is found of a kind of which no tree stands inside another. -/
lemma filter_preorderAll (hk : k ∈ ks) (h : ∀ t ∈ ts, ∀ u ∈ t.children, Free ks u) :
    (preorderAll ts).filter (·.is k) = ts.filter (·.is k) := by
  induction ts with
  | nil => rfl
  | cons t ts ih =>
    have hbelow : (preorderAll t.children).filter (·.is k) = [] := by
      rw [List.filter_eq_nil_iff]
      intro u hu
      obtain ⟨v, hv, hu⟩ := mem_preorderAll_iff.mp hu
      simp [(h t (by simp) v hv).is_eq_false hk hu]
    rw [preorderAll, preorder_eq, List.filter_append, List.filter_cons, hbelow,
      ih fun u hu => h u (by simp [hu]), List.filter_cons]
    split <;> rfl

lemma findAll_node (hk : k ∈ ks) (hne : k' ≠ k) (h : ∀ t ∈ ts, ∀ u ∈ t.children, Free ks u) :
    (node k' ts).findAll (·.is k) = ts.filter (·.is k) := by
  rw [findAll, walk_eq, preorder, List.filter_cons_of_neg (by simpa [is, kind?] using hne),
    filter_preorderAll hk h]

lemma child?_eq_head? (k : Kind) (t : Tree) : t.child? k = (t.childrenOf k).head? :=
  List.head?_filter.symm

lemma find?_eq_head? (p : Tree → Bool) (t : Tree) : t.find? p = (t.findAll p).head? :=
  List.head?_filter.symm

/-! ### Rows of tokens -/

def leaves (ts : List Token) : List Tree := ts.map .leaf

lemma tokensAll_leaves (ts : List Token) : tokensAll (leaves ts) = ts := by
  induction ts with
  | nil => rfl
  | cons t ts ih => rw [leaves, List.map_cons, tokensAll, tokens, ← leaves, ih]; rfl

lemma text_leaves (k : Kind) (ts : List Token) : (node k (leaves ts)).text = joinTokens ts := by
  rw [text, tokens, tokensAll_leaves]

lemma free_of_mem_leaves {ts : List Token} (ks : List Kind) (h : t ∈ leaves ts) : Free ks t := by
  obtain ⟨u, -, rfl⟩ := List.mem_map.mp h
  exact free_leaf ks u

lemma filter_leaves (k : Kind) (ts : List Token) : (leaves ts).filter (·.is k) = [] := by
  rw [List.filter_eq_nil_iff]
  intro t ht
  obtain ⟨u, -, rfl⟩ := List.mem_map.mp ht
  simp [is, kind?]

lemma free_leaves (hk : k ∉ ks) (ts : List Token) : Free ks (.node k (leaves ts)) :=
  free_node hk fun _ => free_of_mem_leaves ks

/-! ### Tokens among the children -/

section Tokens

variable (k : Kind) (p : Pattern) (x : Token) (ts us : List Tree)

@[simp] lemma hasToken_nil : (node k []).hasToken p = false := rfl

@[simp] lemma hasToken_leaf_cons :
    (node k (.leaf x :: ts)).hasToken p = (p.accepts x.lexeme || (node k ts).hasToken p) := rfl

@[simp] lemma hasToken_node_cons (j : Kind) :
    (node k (.node j us :: ts)).hasToken p = (node k ts).hasToken p := rfl

@[simp] lemma hasToken_append :
    (node k (ts ++ us)).hasToken p = ((node k ts).hasToken p || (node k us).hasToken p) :=
  List.any_append

@[simp] lemma hasToken_leaves (xs : List Token) :
    (node k (leaves xs)).hasToken p = xs.any (p.accepts ·.lexeme) := by
  rw [hasToken, children, leaves, List.any_map]
  rfl

end Tokens

end EloquentEntity.Syntax.Tree

import EloquentEntity.Proofs.Syntax.Tree
import Mathlib.Data.List.Lex
import Mathlib.Logic.Function.Iterate

/-!
What a search in a tree visits, and what it finds.

A search takes trees off a stack. After each round, what has been visited and what the trees on the
stack are made of give the whole tree in document order, and the stack holds one tree less to visit.
So the search ends. Equal trees may stand at several places of a tree, which paths tell apart: the
search comes by each path once, and the match that it finds is the one whose path comes first.
-/

namespace EloquentEntity.Syntax.Tree

variable {t u : Tree} {stack ts : List Tree} {i n : Nat}
  {path other : List Nat} {p : Tree → Bool}

/-! ### The stack -/

/-- The stack after one round: the top has been visited, and its children are in its place. -/
def popped : List Tree → List Tree
  | [] => []
  | t :: stack => t.children ++ stack

lemma size_eq (t : Tree) : t.size = sizeAll t.children + 1 := by cases t <;> rfl

lemma sizeAll_eq_zero_iff : sizeAll stack = 0 ↔ stack = [] := by
  cases stack with
  | nil => simp [sizeAll]
  | cons t stack => simp [sizeAll, size_eq]

/-- Each round takes off one of the trees to visit. -/
lemma sizeAll_popped (stack : List Tree) : sizeAll (popped stack) = sizeAll stack - 1 := by
  cases stack with
  | nil => rfl
  | cons t stack =>
    rw [popped, sizeAll_append, sizeAll, size_eq]
    omega

lemma sizeAll_popped_iterate (n : Nat) (stack : List Tree) :
    sizeAll (popped^[n] stack) = sizeAll stack - n := by
  induction n with
  | zero => rfl
  | succ n ih =>
    rw [Function.iterate_succ_apply', sizeAll_popped, ih]
    omega

/-- The stack is empty after as many rounds as there are trees, and not before. -/
lemma popped_iterate_eq_nil_iff : popped^[n] stack = [] ↔ sizeAll stack ≤ n := by
  rw [← sizeAll_eq_zero_iff, sizeAll_popped_iterate]
  omega

lemma popped_iterate_nil (n : Nat) : popped^[n] [] = [] :=
  popped_iterate_eq_nil_iff.mpr (Nat.zero_le n)

/-- Rounds go on from the stack that the rounds before them leave. -/
lemma visit_add (m n : Nat) (stack : List Tree) :
    visit (m + n) stack = visit m stack ++ visit n (popped^[m] stack) := by
  have hnil (n : Nat) : visit n [] = [] := by cases n <;> rfl
  induction m generalizing stack with
  | zero => rw [Nat.zero_add, Function.iterate_zero_apply, visit, List.nil_append]
  | succ m ih =>
    cases stack with
    | nil => rw [hnil, hnil, popped_iterate_nil, hnil, List.append_nil]
    | cons t stack =>
      rw [Nat.succ_add, visit, visit, ih, Function.iterate_succ_apply, popped, List.cons_append]

/-- **What a round keeps:** the visited trees and what those on the stack are made of are the whole,
in document order. -/
lemma visit_append_preorderAll (n : Nat) (stack : List Tree) :
    visit n stack ++ preorderAll (popped^[n] stack) = preorderAll stack := by
  have hrest := visit_eq (le_refl (sizeAll (popped^[n] stack)))
  have hall : sizeAll stack ≤ n + sizeAll (popped^[n] stack) := by
    rw [sizeAll_popped_iterate]
    omega
  calc visit n stack ++ preorderAll (popped^[n] stack)
      = visit n stack ++ visit (sizeAll (popped^[n] stack)) (popped^[n] stack) := by rw [hrest]
    _ = visit (n + sizeAll (popped^[n] stack)) stack := (visit_add ..).symm
    _ = preorderAll stack := visit_eq hall

/-! ### Paths -/

/-- The subtree that a path leads to, which tells to what child to go down at each step. -/
def subtree? : Tree → List Nat → Option Tree
  | t, [] => some t
  | t, i :: path => t.children[i]?.bind fun u => subtree? u path

/-- Document order: a tree comes before all that is in it, and what is in a child of it before what
is in a child further right. -/
inductive Before : List Nat → List Nat → Prop
  | encloses (path : List Nat) (i : Nat) (more : List Nat) : Before path (path ++ i :: more)
  | left (path : List Nat) {i j : Nat} (h : i < j) (more other : List Nat) :
      Before (path ++ i :: more) (path ++ j :: other)

lemma Before.cons (h : Before path other) (i : Nat) : Before (i :: path) (i :: other) := by
  cases h with
  | encloses _ j more => exact .encloses (i :: path) j more
  | left front hlt more other => exact .left (i :: front) hlt more other

lemma Before.lt (h : Before path other) : path < other := by
  cases h with
  | encloses _ i more =>
    have h : path ++ [] < path ++ i :: more := List.append_left_lt (List.nil_lt_cons i more)
    rwa [List.append_nil] at h
  | left front hlt more other => exact List.append_left_lt (List.Lex.rel hlt)

lemma Before.asymm (h : Before path other) : ¬ Before other path :=
  fun h' => lt_asymm h.lt h'.lt

mutual

/-- The paths in a tree, in document order. -/
def pathsIn : Tree → List (List Nat)
  | leaf _ => [[]]
  | node _ cs => [] :: pathsFrom 0 cs

/-- The paths that lead into the children from the `i`-th on. -/
def pathsFrom : Nat → List Tree → List (List Nat)
  | _, [] => []
  | i, t :: ts => (pathsIn t).map (i :: ·) ++ pathsFrom (i + 1) ts

end

lemma exists_of_mem_pathsFrom (h : path ∈ pathsFrom i ts) :
    ∃ j more, path = j :: more ∧ i ≤ j := by
  induction ts generalizing i with
  | nil => simp [pathsFrom] at h
  | cons t ts ih =>
    rw [pathsFrom, List.mem_append] at h
    rcases h with h | h
    · obtain ⟨more, -, rfl⟩ := List.mem_map.mp h
      exact ⟨i, more, rfl, le_refl i⟩
    · obtain ⟨j, more, rfl, hj⟩ := ih h
      exact ⟨j, more, rfl, by omega⟩

mutual

lemma pairwise_pathsIn : ∀ t : Tree, (pathsIn t).Pairwise Before
  | leaf _ => by simp [pathsIn]
  | node _ cs => by
    refine List.pairwise_cons.mpr ⟨fun path h => ?_, pairwise_pathsFrom 0 cs⟩
    obtain ⟨j, more, rfl, -⟩ := exists_of_mem_pathsFrom h
    exact .encloses [] j more

lemma pairwise_pathsFrom : ∀ (i : Nat) (ts : List Tree), (pathsFrom i ts).Pairwise Before
  | _, [] => by simp [pathsFrom]
  | i, t :: ts => by
    refine List.pairwise_append.mpr ⟨?_, pairwise_pathsFrom (i + 1) ts, ?_⟩
    · exact List.pairwise_map.mpr ((pairwise_pathsIn t).imp fun h => h.cons i)
    · intro path hpath other hother
      obtain ⟨more, -, rfl⟩ := List.mem_map.mp hpath
      obtain ⟨j, more', rfl, hj⟩ := exists_of_mem_pathsFrom hother
      exact .left [] (by omega) more more'

end

mutual

lemma map_subtree?_pathsIn : ∀ t : Tree, (pathsIn t).map t.subtree? = t.preorder.map some
  | leaf _ => rfl
  | node k cs => by
    rw [pathsIn, preorder, List.map_cons, List.map_cons, subtree?,
      map_subtree?_pathsFrom k (List.drop_zero ..)]

lemma map_subtree?_pathsFrom (k : Kind) : ∀ {i : Nat} {ts us : List Tree}, us.drop i = ts →
    (pathsFrom i ts).map (node k us).subtree? = (preorderAll ts).map some
  | _, [], _, _ => rfl
  | i, t :: ts, us, h => by
    have ht : us[i]? = some t := by rw [← List.head?_drop, h]; rfl
    have hmore : us.drop (i + 1) = ts := by rw [← List.drop_drop, h]; rfl
    have hchild : (node k us).subtree? ∘ (i :: ·) = t.subtree? := by
      funext path
      rw [Function.comp_apply, subtree?, children, ht, Option.bind_some]
    rw [pathsFrom, preorderAll, List.map_append, List.map_append, List.map_map, hchild,
      map_subtree?_pathsIn t, map_subtree?_pathsFrom k hmore]

end

lemma mem_pathsFrom_iff : path ∈ pathsFrom i ts ↔
    ∃ j more, ∃ u, path = (i + j) :: more ∧ ts[j]? = some u ∧ more ∈ pathsIn u := by
  induction ts generalizing i with
  | nil => simp [pathsFrom]
  | cons t ts ih =>
    rw [pathsFrom, List.mem_append, ih, List.mem_map]
    constructor
    · rintro (⟨more, hmore, rfl⟩ | ⟨j, more, u, rfl, hu, hmore⟩)
      · exact ⟨0, more, t, rfl, rfl, hmore⟩
      · exact ⟨j + 1, more, u, by rw [Nat.add_right_comm, Nat.add_assoc], hu, hmore⟩
    · rintro ⟨_ | j, more, u, rfl, hu, hmore⟩
      · obtain rfl := Option.some.inj hu
        exact .inl ⟨more, hmore, rfl⟩
      · exact .inr ⟨j, more, u, by rw [Nat.add_right_comm, Nat.add_assoc], hu, hmore⟩

/-- The paths in a tree are those that lead somewhere. -/
lemma mem_pathsIn_iff : path ∈ pathsIn t ↔ (t.subtree? path).isSome = true := by
  induction path generalizing t with
  | nil => cases t <;> simp [pathsIn, subtree?]
  | cons i path ih =>
    cases t with
    | leaf t => simp [pathsIn, subtree?, children]
    | node k cs =>
      rw [pathsIn, List.mem_cons, mem_pathsFrom_iff, subtree?, children]
      constructor
      · rintro (h | ⟨j, more, u, h, hu, hmore⟩)
        · cases h
        · obtain ⟨rfl, rfl⟩ := List.cons.inj h
          rw [Nat.zero_add, hu, Option.bind_some, ← ih]
          exact hmore
      · intro h
        obtain ⟨u, hu⟩ := Option.isSome_iff_exists.mp (Option.isSome_of_isSome_bind h)
        rw [hu, Option.bind_some, ← ih] at h
        exact .inr ⟨i, path, u, by rw [Nat.zero_add], hu, h⟩

/-! ### The first match -/

/-- A match stands at this path, and every other one at a later path. -/
def IsFirst (t : Tree) (p : Tree → Bool) (path : List Nat) : Prop :=
  (∃ u ∈ t.subtree? path, p u = true) ∧
    ∀ other, (∃ v ∈ t.subtree? other, p v = true) → other = path ∨ Before path other

lemma IsFirst.unique (h : IsFirst t p path) (h' : IsFirst t p other) : path = other := by
  rcases h.2 other h'.1 with heq | hbefore
  · exact heq.symm
  · rcases h'.2 path h.1 with heq | hbefore'
    · exact heq
    · exact absurd hbefore' hbefore.asymm

lemma exists_pathsIn_eq {front back : List Tree} (h : t.walk = front ++ u :: back) :
    ∃ before path after, pathsIn t = before ++ path :: after ∧
      before.map t.subtree? = front.map some ∧ t.subtree? path = some u := by
  have hmap : (pathsIn t).map t.subtree? = front.map some ++ some u :: back.map some := by
    rw [map_subtree?_pathsIn, ← walk_eq, h, List.map_append, List.map_cons]
  obtain ⟨before, rest, hpaths, hbefore, hrest⟩ := List.map_eq_append_iff.mp hmap
  obtain ⟨path, after, rfl, hpath, -⟩ := List.map_eq_cons_iff.mp hrest
  exact ⟨before, path, after, hpaths, hbefore, hpath⟩

lemma isFirst_of_find? (h : t.walk.find? p = some u) :
    ∃ path, IsFirst t p path ∧ t.subtree? path = some u := by
  obtain ⟨hu, front, back, hwalk, hfront⟩ := List.find?_eq_some_iff_append.mp h
  obtain ⟨before, path, after, hpaths, hbefore, hpath⟩ := exists_pathsIn_eq hwalk
  have hsorted : (before ++ path :: after).Pairwise Before := hpaths ▸ pairwise_pathsIn t
  refine ⟨path, ⟨⟨u, hpath, hu⟩, ?_⟩, hpath⟩
  rintro other ⟨v, hv, hpv⟩
  have hmem : other ∈ pathsIn t := mem_pathsIn_iff.mpr (by rw [hv]; rfl)
  rw [hpaths, List.mem_append, List.mem_cons] at hmem
  rcases hmem with hmem | rfl | hmem
  · -- nothing in front matches
    have hv' : some v ∈ front.map some := by
      rw [← hbefore, ← hv]
      exact List.mem_map_of_mem hmem
    obtain ⟨w, hw, hwv⟩ := List.mem_map.mp hv'
    obtain rfl := Option.some.inj hwv
    have hno : p w = false := by simpa using hfront w hw
    rw [hno] at hpv
    cases hpv
  · exact .inl rfl
  · exact .inr ((List.pairwise_cons.mp (List.pairwise_append.mp hsorted).2.1).1 other hmem)

lemma find?_eq_some_iff :
    t.find? p = some u ↔ ∃ path, IsFirst t p path ∧ t.subtree? path = some u := by
  refine ⟨isFirst_of_find?, ?_⟩
  rintro ⟨path, hfirst, hu⟩
  have hmem : u ∈ t.walk := by
    have hpath : path ∈ pathsIn t := mem_pathsIn_iff.mpr (by rw [hu]; rfl)
    have hmap : some u ∈ (pathsIn t).map t.subtree? := hu ▸ List.mem_map_of_mem hpath
    rw [map_subtree?_pathsIn, ← walk_eq] at hmap
    simpa using hmap
  obtain ⟨w, hw, hpw⟩ := hfirst.1
  obtain rfl : w = u := Option.some.inj (hw.symm.trans hu)
  obtain ⟨v, hv⟩ := Option.isSome_iff_exists.mp (List.find?_isSome.mpr ⟨w, hmem, hpw⟩)
  obtain ⟨other, hother, hv'⟩ := isFirst_of_find? hv
  rw [hfirst.unique hother, hv'] at hu
  exact hv.trans hu

/-- **The search visits each tree once, in document order.** After any number of rounds the visited
trees and those that the stack is made of are the whole traversal, and the stack is empty from the
round on that the size of the tree tells. Among all paths of the tree, each once and in document
order, the visited trees are those that the paths lead to. All matches are found in this order, and
of several the one that encloses the others or stands before them. -/
theorem walk_visits_once (t : Tree) :
    (∀ n, visit n [t] ++ preorderAll (popped^[n] [t]) = t.preorder ∧
      (popped^[n] [t] = [] ↔ t.size ≤ n)) ∧
    t.walk = t.preorder ∧
    (∃ paths : List (List Nat), paths.Pairwise Before ∧ paths.Nodup ∧
      (∀ path, path ∈ paths ↔ (t.subtree? path).isSome = true) ∧
      t.walk.map some = paths.map t.subtree?) ∧
    ∀ p : Tree → Bool, t.findAll p = t.preorder.filter p ∧
      t.find? p = (t.preorder.filter p).head? ∧
      ∀ u, t.find? p = some u ↔ ∃ path, IsFirst t p path ∧ t.subtree? path = some u := by
  have hone : sizeAll [t] = t.size := by simp [sizeAll]
  refine ⟨fun n => ⟨?_, ?_⟩, walk_eq t, ⟨pathsIn t, pairwise_pathsIn t, ?_, fun _ => mem_pathsIn_iff,
    ?_⟩, fun p => ⟨?_, ?_, fun _ => find?_eq_some_iff⟩⟩
  · rw [visit_append_preorderAll, preorderAll, preorderAll, List.append_nil]
  · rw [popped_iterate_eq_nil_iff, hone]
  · exact (pairwise_pathsIn t).imp fun h => h.lt.ne
  · rw [walk_eq, map_subtree?_pathsIn]
  · rw [findAll, walk_eq]
  · rw [find?_eq_head?, findAll, walk_eq]

end EloquentEntity.Syntax.Tree

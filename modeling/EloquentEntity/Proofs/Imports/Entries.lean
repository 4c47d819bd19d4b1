import EloquentEntity.Proofs.Imports.Declaration
import EloquentEntity.Proofs.OrderedMap

/-!
What each clause of a source imports.

The entries of a source are those of its clauses, one clause after the other. The last one under a
short name is the one that counts, and no short name has a backslash in it.
-/

namespace EloquentEntity.OrderedMap

variable {α β : Type} [DecidableEq α] {k : α} {v : β}

/-- The last entry of a key is the one that is found. -/
lemma get?_putAll_of_ne (m : OrderedMap α β) {es : List (α × β)} (h : ∀ e ∈ es, e.1 ≠ k) :
    (m.putAll es).get? k = m.get? k := by
  induction es generalizing m with
  | nil => rfl
  | cons e es ih =>
    obtain ⟨he, hes⟩ := List.forall_mem_cons.mp h
    exact (ih (m.put e.1 e.2) hes).trans (by rw [get?_put, if_neg he])

lemma get?_ofList_last (front : List (α × β)) {back : List (α × β)} (h : ∀ e ∈ back, e.1 ≠ k) :
    (ofList (front ++ (k, v) :: back)).get? k = some v := by
  have hall : (ofList (front ++ (k, v) :: back)).get? k =
      (((putAll ∅ front).put k v).putAll back).get? k := by
    rw [ofList, putAll, List.foldl_append]
    rfl
  rw [hall, get?_putAll_of_ne _ h, get?_put, if_pos rfl]

end EloquentEntity.OrderedMap

namespace EloquentEntity.Imports

open Syntax Syntax.Tree

variable {c d root : Tree} {source : String} {us : List Tree}

/-! ### Clauses and their entries -/

def clauses (d : Tree) : List Tree := ((d.child? .useGroup).getD d).childrenOf .useClause

/-- All clauses of a source in document order, each with its declaration. -/
def allClauses (root : Tree) : List (Tree × Tree) :=
  (root.findAll (·.is .useDeclaration)).flatMap fun d => (clauses d).map (d, ·)

def baseName (d : Tree) : String :=
  ((d.child? .namespaceName).map fun n => ClassName.bare n.nameText).getD ""

/-- What a clause of a declaration imports. -/
def clauseImport? (d c : Tree) : Option (String × String) :=
  if isNoClass d || isNoClass c then none
  else (clauseParts? c).map
    (if (d.child? .useGroup).isSome then groupEntry (baseName d) else plainEntry)

lemma map_classClauses (f : String × Option String → String × String) (t : Tree) :
    (classClauses t).map f = (t.childrenOf .useClause).filterMap fun c =>
      if isNoClass c then none else (clauseParts? c).map f := by
  rw [classClauses, List.filterMap_filter, List.map_filterMap]
  refine List.filterMap_congr fun c _ => ?_
  cases isNoClass c <;> rfl

lemma declarationEntries_eq_filterMap (d : Tree) :
    declarationEntries d = (clauses d).filterMap (clauseImport? d) := by
  rw [declarationEntries, clauses]
  unfold clauseImport?
  cases hno : isNoClass d with
  | true => simp
  | false =>
    cases hgroup : d.child? .useGroup with
    | none => simpa using map_classClauses plainEntry d
    | some group => simpa [baseName] using map_classClauses (groupEntry (baseName d)) group

lemma entries_eq_filterMap (root : Tree) :
    entries root = (allClauses root).filterMap fun x => clauseImport? x.1 x.2 := by
  rw [entries, allClauses, List.filterMap_flatMap]
  refine List.flatMap_congr fun d _ => ?_
  rw [declarationEntries_eq_filterMap, List.filterMap_map]
  rfl

lemma IsDeclaration.isClause (h : IsDeclaration d) (hc : c ∈ clauses d) : IsClause c := by
  obtain ⟨use, us, term, rfl, huse, hus, hterm⟩ := h.parts
  rw [clauses, child?_eq_head?, childrenOf_declaration hterm] at hc
  obtain hgroup | hrow := hus
  · obtain ⟨names, group, hgroup, hfilter, -⟩ := hgroup.exists_group
    obtain ⟨first, more, hchildren, hall⟩ := hgroup.childrenOf_eq
    rw [hfilter, List.head?_cons, Option.getD_some, hchildren] at hc
    exact hall c hc
  · obtain ⟨first, more, hfilter, hnogroup, hall, -⟩ := hrow.exists_clauses
    rw [hnogroup, List.head?_nil, Option.getD_none, childrenOf_declaration hterm, hfilter] at hc
    exact hall c hc

lemma mem_of_mem_clauses (hc : c ∈ clauses d) : c ∈ d.preorder := by
  rw [clauses] at hc
  have hc := (List.mem_filter.mp hc).1
  cases hgroup : d.child? .useGroup with
  | none =>
    rw [hgroup] at hc
    exact mem_preorder_of_child hc
  | some group =>
    rw [hgroup] at hc
    exact mem_preorder_child (mem_preorder_of_child (List.mem_of_find?_eq_some hgroup)) hc

/-- A clause of a source is one of one of its declarations. -/
lemma mem_allClauses {x : Tree × Tree} (hx : x ∈ allClauses root) :
    x.1 ∈ root.preorder ∧ x.1.is .useDeclaration = true ∧ x.2 ∈ clauses x.1 := by
  obtain ⟨d, hd, hx⟩ := List.mem_flatMap.mp hx
  obtain ⟨c, hc, rfl⟩ := List.mem_map.mp hx
  rw [findAll, walk_eq] at hd
  obtain ⟨hd, hk⟩ := List.mem_filter.mp hd
  exact ⟨hd, hk, hc⟩

/-! ### Short names -/

lemma notMem_short (name : String) : '\\' ∉ (ClassName.short name).toList := by
  rw [ClassName.short, String.toList_ofList]
  intro h
  have := List.mem_takeWhile_imp (List.mem_reverse.mp h)
  simp at this

lemma notMem_nameText (h : parse source = some root) {w : Token} {k : Kind}
    (hw : .node k [.leaf w] ∈ root.preorder) (hword : w.kind = .word) :
    '\\' ∉ (Syntax.Tree.node k [.leaf w]).nameText.toList := by
  have hmem : w ∈ root.tokens := mem_tokens_of_preorder hw (by simp [Tree.tokens, tokensAll])
  have hpart := (word_of_parse h hmem hword).2
  rw [nameText, String.toList_ofList]
  intro hm
  have hm : '\\' ∈ w.text := by
    simpa [text, Tree.tokens, tokensAll, joinTokens] using (List.mem_filter.mp hm).1
  exact absurd (hpart _ hm) (by decide)

/-- A clause enters a name under its alias, or else under the last segment. -/
lemma key_cases {e : String × String} (he : clauseImport? d c = some e) :
    ∃ bare newName, clauseParts? c = some (bare, newName) ∧
      e.1 = newName.getD (ClassName.short bare) := by
  rw [clauseImport?] at he
  split at he
  · cases he
  · obtain ⟨⟨bare, newName⟩, hparts, rfl⟩ := Option.map_eq_some_iff.mp he
    refine ⟨bare, newName, hparts, ?_⟩
    split <;> rfl

lemma notMem_key (h : parse source = some root) {x : Tree × Tree} (hx : x ∈ allClauses root)
    {e : String × String} (he : clauseImport? x.1 x.2 = some e) : '\\' ∉ e.1.toList := by
  obtain ⟨d, c⟩ := x
  obtain ⟨hd, hk, hc⟩ := mem_allClauses hx
  have hmem : c ∈ root.preorder := preorder_trans hd (mem_of_mem_clauses hc)
  have hclause := (isDeclaration_of_parse h hd hk).isClause hc
  obtain ⟨bare, newName, hparts, hkey⟩ := key_cases he
  rw [hkey]
  cases newName with
  | none => exact notMem_short bare
  | some a =>
    obtain ⟨name, -, hnodes | ⟨w, hnodes, hw⟩⟩ := hclause.nodes_cases
    · rw [clauseParts?, hnodes] at hparts
      simp at hparts
    · rw [clauseParts?, hnodes] at hparts
      have hlabel : .node .name [.leaf w] ∈ root.preorder := by
        refine mem_preorder_child hmem (List.mem_of_mem_filter (p := (·.kind?.isSome)) ?_)
        rw [← nodes, hnodes]
        simp
      have ha : a = (node .name [.leaf w]).nameText := by
        dsimp only at hparts
        split at hparts
        · cases hparts
        · simp only [Option.some.injEq, Prod.mk.injEq, List.getLast?_singleton, Option.map_some,
            Option.filter_eq_some_iff] at hparts
          exact hparts.2.1.symm
      rw [Option.getD_some, ha]
      exact notMem_nameText h hlabel hw

lemma notMem_of_mem_entries (h : parse source = some root) {e : String × String}
    (he : e ∈ entries root) : '\\' ∉ e.1.toList := by
  rw [entries_eq_filterMap] at he
  obtain ⟨x, hx, he⟩ := List.mem_filterMap.mp he
  exact notMem_key h hx he

/-- A name with a backslash in it is not imported under this name. -/
lemma get?_collect_eq_none (h : parse source = some root) {name : String}
    (hname : '\\' ∈ name.toList) : (collect root).get? name = none := by
  cases hget : (collect root).get? name with
  | none => rfl
  | some full =>
    exact absurd hname (notMem_of_mem_entries h (OrderedMap.mem_of_get?_ofList hget))

/-- The last clause that enters a short name decides what it stands for. -/
lemma get?_collect_of_last {front back : List (Tree × Tree)} {x : Tree × Tree} {short full : String}
    (hall : allClauses root = front ++ x :: back) (hx : clauseImport? x.1 x.2 = some (short, full))
    (hlast : ∀ y ∈ back, ∀ e ∈ clauseImport? y.1 y.2, e.1 ≠ short) :
    (collect root).get? short = some full := by
  rw [collect, entries_eq_filterMap, hall, List.filterMap_append, List.filterMap_cons, hx]
  refine OrderedMap.get?_ofList_last _ fun e he => ?_
  obtain ⟨y, hy, he⟩ := List.mem_filterMap.mp he
  exact hlast y hy e he

end EloquentEntity.Imports

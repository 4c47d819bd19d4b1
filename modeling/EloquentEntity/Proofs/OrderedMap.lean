import EloquentEntity.OrderedMap
import Mathlib.Data.List.Induction
import Mathlib.Data.List.Nodup

/-!
What a look-up finds in a map after each operation, and the maps that are made from entries, with
different keys or not.
-/

namespace EloquentEntity

variable {α β : Type} [DecidableEq α]

lemma find?_putEntry (k k' : α) (v : β) (es : List (α × β)) :
    (putEntry k v es).find? (·.1 = k') =
      if k = k' then some (k, v) else es.find? (·.1 = k') := by
  induction es with
  | nil => by_cases h : k = k' <;> simp [putEntry, h]
  | cons e es ih =>
    by_cases he : e.1 = k
    · by_cases hk : k = k'
      · simp [putEntry, he, hk]
      · have : e.1 ≠ k' := by rwa [he]
        simp [putEntry, he, hk]
    · by_cases hk : k = k'
      · subst hk
        simp only [putEntry, if_neg he]
        rw [List.find?_cons_of_neg (by simpa using he), ih]
        simp
      · simp only [putEntry, if_neg he, if_neg hk]
        by_cases hk' : e.1 = k'
        · simp [hk']
        · rw [List.find?_cons_of_neg (by simpa using hk'), ih, if_neg hk,
            List.find?_cons_of_neg (by simpa using hk')]

lemma putEntry_of_notMem {k : α} (v : β) {es : List (α × β)} (h : k ∉ es.map Prod.fst) :
    putEntry k v es = es ++ [(k, v)] := by
  induction es with
  | nil => rfl
  | cons e es ih =>
    simp only [List.map_cons, List.mem_cons, not_or] at h
    rw [putEntry, if_neg (Ne.symm h.1), ih h.2, List.cons_append]

/-- One more element comes last, unless it has come already. -/
lemma eraseDups_concat (xs : List α) (x : α) :
    (xs ++ [x]).eraseDups = if x ∈ xs then xs.eraseDups else xs.eraseDups ++ [x] := by
  rw [List.eraseDups_append]
  have hx : [x].eraseDups = [x] := rfl
  split <;> simp [List.removeAll, *]

lemma eraseDups_of_nodup {xs : List α} (h : xs.Nodup) : xs.eraseDups = xs := by
  induction xs using List.reverseRecOn with
  | nil => rfl
  | append_singleton xs x ih =>
    have hx : x ∉ xs := fun hx => List.disjoint_of_nodup_append h hx (List.mem_singleton_self x)
    rw [eraseDups_concat, if_neg hx, ih h.of_append_left]

lemma eraseDups_append_eraseDups (xs ys : List α) :
    (xs ++ ys.eraseDups).eraseDups = (xs ++ ys).eraseDups := by
  induction ys using List.reverseRecOn with
  | nil => rfl
  | append_singleton ys y ih =>
    have hmem : y ∈ xs ++ ys.eraseDups ↔ y ∈ xs ++ ys := by
      rw [List.mem_append, List.mem_append, List.mem_eraseDups]
    rw [eraseDups_concat, ← List.append_assoc, eraseDups_concat]
    by_cases hy : y ∈ ys
    · rw [if_pos hy, if_pos (List.mem_append_right xs hy), ih]
    · rw [if_neg hy, ← List.append_assoc, eraseDups_concat, ih]
      simp only [hmem]

namespace OrderedMap

omit [DecidableEq α] in
lemma ext_entries {m n : OrderedMap α β} (h : m.entries = n.entries) : m = n := by
  cases m; cases n; congr

lemma get?_empty (k : α) : (∅ : OrderedMap α β).get? k = none := rfl

lemma get?_put (m : OrderedMap α β) (k k' : α) (v : β) :
    (m.put k v).get? k' = if k = k' then some v else m.get? k' := by
  rw [get?, put, find?_putEntry, get?]
  split <;> rfl

lemma get?_eq_some_iff {m : OrderedMap α β} {k : α} {v : β} :
    m.get? k = some v ↔ (k, v) ∈ m.entries := by
  rw [get?, Option.map_eq_some_iff]
  constructor
  · rintro ⟨e, he, rfl⟩
    have hk : e.1 = k := by simpa using List.find?_some he
    have hm := List.mem_of_find?_eq_some he
    rwa [← hk]
  · intro h
    rcases hf : m.entries.find? (·.1 = k) with _ | e
    · exact absurd (List.find?_eq_none.mp hf _ h) (by simp)
    · have hk : e.1 = k := by simpa using List.find?_some hf
      refine ⟨e, hf, ?_⟩
      rw [List.inj_on_of_nodup_map m.nodup (List.mem_of_find?_eq_some hf) h hk]

lemma get?_eq_none_iff {m : OrderedMap α β} {k : α} : m.get? k = none ↔ k ∉ m.keys := by
  rw [get?, Option.map_eq_none_iff, List.find?_eq_none, keys, List.mem_map]
  constructor
  · rintro h ⟨e, he, rfl⟩
    exact h e he (by simp)
  · intro h e he
    simpa using fun hk => h ⟨e, he, hk⟩

lemma entries_put_of_notMem {m : OrderedMap α β} {k : α} (v : β) (h : k ∉ m.keys) :
    (m.put k v).entries = m.entries ++ [(k, v)] :=
  putEntry_of_notMem v h

/-- A key that is put and taken away again leaves nothing behind. -/
lemma erase_put {m : OrderedMap α β} {k : α} (v : β) (h : m.get? k = none) :
    (m.put k v).erase k = m := by
  have hk : k ∉ m.keys := get?_eq_none_iff.mp h
  have hm : m.entries.filter (·.1 ≠ k) = m.entries :=
    List.filter_eq_self.mpr fun e he => by
      simpa using fun h : e.1 = k => hk (h ▸ List.mem_map_of_mem he)
  refine ext_entries ?_
  change (m.put k v).entries.filter (·.1 ≠ k) = m.entries
  rw [entries_put_of_notMem v hk, List.filter_append, hm]
  simp

lemma putAll_entries (m : OrderedMap α β) (es : List (α × β))
    (h : (m.keys ++ es.map Prod.fst).Nodup) : (m.putAll es).entries = m.entries ++ es := by
  induction es generalizing m with
  | nil => simp [putAll]
  | cons e es ih =>
    have hd := List.disjoint_of_nodup_append h
    have hk : e.1 ∉ m.keys := fun hm => hd hm (by simp)
    have hput : (m.put e.1 e.2).keys = m.keys ++ [e.1] := by rw [keys_put, if_neg hk]
    have := ih (m.put e.1 e.2) (by rw [hput]; simpa using h)
    rw [entries_put_of_notMem e.2 hk] at this
    simpa [putAll] using this

lemma ofList_entries {es : List (α × β)} (h : (es.map Prod.fst).Nodup) :
    (ofList es).entries = es := by
  rw [ofList, putAll_entries ∅ es h]
  rfl

/-- What is found under a key was there or has been put. -/
lemma mem_of_get?_putAll {m : OrderedMap α β} {es : List (α × β)} {k : α} {v : β}
    (h : (m.putAll es).get? k = some v) : m.get? k = some v ∨ (k, v) ∈ es := by
  induction es generalizing m with
  | nil => exact .inl h
  | cons e es ih =>
    rcases ih (m := m.put e.1 e.2) h with h | h
    · rw [get?_put] at h
      split at h
      · next hk =>
        obtain rfl := Option.some.inj h
        exact .inr (by simp [← hk])
      · exact .inl h
    · exact .inr (List.mem_cons_of_mem _ h)

lemma mem_of_get?_ofList {es : List (α × β)} {k : α} {v : β} (h : (ofList es).get? k = some v) :
    (k, v) ∈ es := by
  rcases mem_of_get?_putAll h with h | h
  · cases h
  · exact h

lemma get?_mapValues {γ : Type} (f : β → γ) (m : OrderedMap α β) (k : α) :
    (m.mapValues f).get? k = (m.get? k).map f := by
  simp only [get?, mapValues, List.find?_map, Option.map_map]
  rfl

lemma ofList_map_entries {γ : Type} (f : β → γ) (m : OrderedMap α β) :
    ofList (m.entries.map fun e => (e.1, f e.2)) = m.mapValues f :=
  ext_entries (ofList_entries (by simpa [List.map_map, Function.comp_def] using m.nodup))

/-! ### Entries put one after the other -/

lemma putAll_append (m : OrderedMap α β) (es fs : List (α × β)) :
    m.putAll (es ++ fs) = (m.putAll es).putAll fs :=
  List.foldl_append

/-- Keys come in the order in which each came first. -/
lemma keys_putAll (m : OrderedMap α β) (es : List (α × β)) :
    (m.putAll es).keys = (m.keys ++ es.map Prod.fst).eraseDups := by
  induction es using List.reverseRecOn with
  | nil =>
    rw [List.map_nil, List.append_nil]
    exact (eraseDups_of_nodup m.nodup).symm
  | append_singleton es e ih =>
    have hmem : e.1 ∈ (m.putAll es).keys ↔ e.1 ∈ m.keys ++ es.map Prod.fst := by
      rw [ih, List.mem_eraseDups]
    have hput : (m.putAll (es ++ [e])).keys = ((m.putAll es).put e.1 e.2).keys := by
      rw [putAll_append]
      rfl
    rw [hput, keys_put, List.map_append, List.map_singleton, ← List.append_assoc,
      eraseDups_concat, ← ih]
    simp only [hmem]

lemma keys_ofList (es : List (α × β)) : (ofList es).keys = (es.map Prod.fst).eraseDups :=
  keys_putAll ∅ es

/-- The last value that was put under a key is found there, or else what was there before. -/
lemma get?_putAll (m : OrderedMap α β) (es : List (α × β)) (k : α) :
    (m.putAll es).get? k = ((es.reverse.find? (·.1 = k)).map Prod.snd).or (m.get? k) := by
  induction es generalizing m with
  | nil => rfl
  | cons e es ih =>
    have hput : (m.putAll (e :: es)).get? k = _ := ih (m.put e.1 e.2)
    rw [hput, get?_put, List.reverse_cons, List.find?_append]
    by_cases hk : e.1 = k
    · cases es.reverse.find? (·.1 = k) <;> simp [hk]
    · cases es.reverse.find? (·.1 = k) <;> simp [hk]

lemma get?_ofList (es : List (α × β)) (k : α) :
    (ofList es).get? k = (es.reverse.find? (·.1 = k)).map Prod.snd := by
  rw [ofList, get?_putAll, get?_empty, Option.or_none]

/-- The entries of a map are its keys in order, each with what is found under it. -/
lemma entries_eq (m : OrderedMap α β) :
    m.entries.map (fun e => (e.1, some e.2)) = m.keys.map fun k => (k, m.get? k) := by
  rw [keys, List.map_map]
  exact List.map_congr_left fun e he => by
    rw [Function.comp_apply, get?_eq_some_iff.mpr he]

/-- A map is its keys in order and what is found under them. -/
lemma ext_keys {m n : OrderedMap α β} (hkeys : m.keys = n.keys)
    (h : ∀ k, m.get? k = n.get? k) : m = n := by
  have hmap : m.entries.map (fun e => (e.1, some e.2)) =
      n.entries.map (fun e => (e.1, some e.2)) := by
    rw [entries_eq, entries_eq, hkeys]
    exact List.map_congr_left fun k _ => by rw [h]
  refine ext_entries (List.map_injective_iff.mpr ?_ hmap)
  rintro ⟨a, b⟩ ⟨a', b'⟩ heq
  simpa using heq

lemma ofList_entries_self (m : OrderedMap α β) : ofList m.entries = m :=
  ext_entries (ofList_entries m.nodup)

/-- Entries are merged in as if they were put one after the other. -/
lemma merge_ofList (m : OrderedMap α β) (es : List (α × β)) :
    m.merge (ofList es) = m.putAll es := by
  have hkeys : (ofList es).entries.map Prod.fst = (es.map Prod.fst).eraseDups := keys_ofList es
  have hlast (k : α) : ((ofList es).entries.reverse.find? (·.1 = k)).map Prod.snd =
      (es.reverse.find? (·.1 = k)).map Prod.snd := by
    rw [← get?_ofList, ← get?_ofList, ofList_entries_self]
  refine ext_keys ?_ fun k => ?_
  · rw [merge, keys_putAll, keys_putAll, hkeys, eraseDups_append_eraseDups]
  · rw [merge, get?_putAll, get?_putAll, hlast]

end OrderedMap

end EloquentEntity

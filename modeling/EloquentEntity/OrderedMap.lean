/-!
Finite maps that remember the order in which their keys came first.

Putting a value under a present key keeps the key's place and replaces the value.
-/

namespace EloquentEntity

/-- `put` on the entries: the last value of a key stands at the key's first place. -/
def putEntry [DecidableEq α] (k : α) (v : β) : List (α × β) → List (α × β)
  | [] => [(k, v)]
  | e :: es => if e.1 = k then (k, v) :: es else e :: putEntry k v es

theorem map_fst_putEntry [DecidableEq α] (k : α) (v : β) (es : List (α × β)) :
    (putEntry k v es).map Prod.fst =
      if k ∈ es.map Prod.fst then es.map Prod.fst else es.map Prod.fst ++ [k] := by
  induction es with
  | nil => simp [putEntry]
  | cons e es ih =>
    by_cases h : e.1 = k
    · simp [putEntry, h]
    · have h' : ¬k = e.1 := fun hk => h hk.symm
      simp only [putEntry, if_neg h, List.map_cons, ih, List.mem_cons, h', false_or]
      split <;> simp_all

/-- A map with its entries in order. -/
structure OrderedMap (α β : Type) where
  entries : List (α × β)
  nodup : (entries.map Prod.fst).Nodup
  deriving DecidableEq, Repr

namespace OrderedMap

variable {α β : Type}

def empty : OrderedMap α β := ⟨[], by simp⟩

instance : EmptyCollection (OrderedMap α β) := ⟨empty⟩
instance : Inhabited (OrderedMap α β) := ⟨empty⟩

def keys (m : OrderedMap α β) : List α := m.entries.map Prod.fst

def size (m : OrderedMap α β) : Nat := m.entries.length

variable [DecidableEq α]

def put (m : OrderedMap α β) (k : α) (v : β) : OrderedMap α β where
  entries := putEntry k v m.entries
  nodup := by
    rw [map_fst_putEntry]
    split
    · exact m.nodup
    · refine List.nodup_append.2 ⟨m.nodup, by simp, ?_⟩
      intro a ha b hb
      simp only [List.mem_singleton] at hb
      rintro rfl
      simp_all

def get? (m : OrderedMap α β) (k : α) : Option β :=
  (m.entries.find? (·.1 = k)).map Prod.snd

def erase (m : OrderedMap α β) (k : α) : OrderedMap α β where
  entries := m.entries.filter (·.1 ≠ k)
  nodup := (List.filter_sublist.map Prod.fst).nodup m.nodup

def putAll (m : OrderedMap α β) (es : List (α × β)) : OrderedMap α β :=
  es.foldl (fun m e => m.put e.1 e.2) m

def ofList (es : List (α × β)) : OrderedMap α β := putAll ∅ es

/-- The entries of `n` put after those of `m`. -/
def merge (m n : OrderedMap α β) : OrderedMap α β := m.putAll n.entries

omit [DecidableEq α] in
def mapValues {γ : Type} (f : β → γ) (m : OrderedMap α β) : OrderedMap α γ where
  entries := m.entries.map fun e => (e.1, f e.2)
  nodup := by simpa [List.map_map, Function.comp_def] using m.nodup

@[simp] theorem keys_put (m : OrderedMap α β) (k : α) (v : β) :
    (m.put k v).keys = if k ∈ m.keys then m.keys else m.keys ++ [k] :=
  map_fst_putEntry k v m.entries

omit [DecidableEq α] in
@[simp] theorem keys_mapValues {γ : Type} (f : β → γ) (m : OrderedMap α β) :
    (m.mapValues f).keys = m.keys := by
  simp [keys, mapValues, List.map_map, Function.comp_def]

end OrderedMap

end EloquentEntity

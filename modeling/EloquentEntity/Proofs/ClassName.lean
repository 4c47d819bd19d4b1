import EloquentEntity.ClassName
import EloquentEntity.Proofs.Text.Ends
import Mathlib.Tactic.Common

/-!
What a class name is without its namespace and without the backslashes in front, and which names
are imported.
-/

namespace EloquentEntity.ClassName

variable {x y : String} {names : List String} {s w : List Char}

/-! ### Parts of a name -/

lemma short_of_notMem (hw : '\\' ∉ w) : short (String.ofList w) = String.ofList w := by
  rw [short, String.toList_ofList]
  exact congrArg String.ofList (Text.afterLast_of_notMem hw)

/-- The segment after a backslash, if no further one follows. -/
lemma short_append (hw : '\\' ∉ w) (s : List Char) :
    short (String.ofList (s ++ '\\' :: w)) = String.ofList w := by
  rw [short, String.toList_ofList]
  exact congrArg String.ofList (Text.afterLast_append hw s)

lemma bare_of_notMem_head? (h : '\\' ∉ s.head?) : bare (String.ofList s) = String.ofList s := by
  cases s with
  | nil => rfl
  | cons c s =>
    have hc : (c == '\\') = false := by simpa using h
    rw [bare, String.toList_ofList, List.dropWhile_cons_of_neg (by simp [hc])]

lemma bare_backslash (s : List Char) :
    bare (String.ofList ('\\' :: s)) = bare (String.ofList s) := by
  rw [bare, bare, String.toList_ofList, String.toList_ofList, List.dropWhile_cons_of_pos rfl]

/-! ### Names without a backslash in front -/

def IsBare (name : String) : Prop := name ≠ "" ∧ name.toList.head? ≠ some '\\'

instance (name : String) : Decidable (IsBare name) := inferInstanceAs (Decidable (_ ∧ _))

variable {name : String}

lemma head?_bare_ne (name : String) : (bare name).toList.head? ≠ some '\\' := by
  rw [bare, String.toList_ofList]
  intro h
  have := List.head?_dropWhile_not (· == '\\') name.toList
  rw [h] at this
  simp at this

lemma isBare_bare {c : Char} (hc : c ∈ name.toList) (hne : c ≠ '\\') : IsBare (bare name) := by
  have hd : name.toList.dropWhile (· == '\\') ≠ [] := fun h => by
    have := List.dropWhile_eq_nil_iff.mp h c hc
    exact hne (by simpa using this)
  refine ⟨fun h => hd ?_, head?_bare_ne name⟩
  simpa [bare] using congrArg String.toList h

lemma IsBare.bare_eq (h : IsBare name) : bare name = name := by
  have := bare_of_notMem_head? (s := name.toList) (by simpa using h.2)
  rwa [String.ofList_toList] at this

lemma IsBare.append (h : IsBare name) (s : String) : IsBare (name ++ s) := by
  obtain ⟨hne, hhead⟩ := h
  refine ⟨by simp [hne], ?_⟩
  rw [String.toList_append]
  rcases hname : name.toList with _ | ⟨c, r⟩
  · exact absurd (by simpa using hname) hne
  · simpa [hname] using hhead

/-- A segment has no backslash, so that only an empty one is not bare. -/
lemma isBare_short (h : short name ≠ "") : IsBare (short name) := by
  refine ⟨h, fun hhead => ?_⟩
  have hm := List.mem_of_mem_head? (Option.mem_def.mpr hhead)
  rw [short, String.toList_ofList, List.mem_reverse] at hm
  simpa using List.mem_takeWhile_imp hm

/-- The last segment of a name that does not end with a backslash. -/
lemma short_ne {s : List Char} {c : Char} (hc : c ≠ '\\') :
    short (String.ofList (s ++ [c])) ≠ "" := by
  intro h
  have := congrArg String.toList h
  simp [short, hc] at this

lemma qualify_eq (h : IsBare name) : qualify name = "\\" ++ name := by rw [qualify, h.bare_eq]

/-! ### Imported names -/

lemma mem_insertName_iff : y ∈ insertName x names ↔ y = x ∨ y ∈ names := by
  induction names with
  | nil => simp [insertName]
  | cons z names ih =>
    rw [insertName]
    split
    · simp
    · split
      · next hxz => simp [hxz]
      · rw [List.mem_cons, ih, List.mem_cons]
        tauto

lemma pairwise_insertName (h : names.Pairwise (· < ·)) : (insertName x names).Pairwise (· < ·) := by
  induction names with
  | nil => simp [insertName]
  | cons z names ih =>
    obtain ⟨hz, hnames⟩ := List.pairwise_cons.mp h
    rw [insertName]
    split
    · next hxz =>
      refine List.pairwise_cons.mpr ⟨fun y hy => ?_, h⟩
      rcases List.mem_cons.mp hy with rfl | hy
      · exact hxz
      · exact String.lt_trans hxz (hz y hy)
    · next hxz =>
      split
      · exact h
      · next hne =>
        have hzx : z < x := by
          by_contra hzx
          exact hne (String.le_antisymm hzx hxz)
        refine List.pairwise_cons.mpr ⟨fun y hy => ?_, ih hnames⟩
        rcases mem_insertName_iff.mp hy with rfl | hy
        · exact hzx
        · exact hz y hy

lemma mem_importNames_iff : y ∈ importNames names ↔ y ≠ "" ∧ ∃ x ∈ names, bare x = y := by
  have hfold (l : List String) : y ∈ l.foldr insertName [] ↔ y ∈ l := by
    induction l with
    | nil => simp
    | cons x l ih => rw [List.foldr_cons, mem_insertName_iff, ih, List.mem_cons]
  rw [importNames, hfold, List.mem_filter, List.mem_map]
  simp [and_comm]

/-- The imported names are in order, and none is imported twice. -/
lemma pairwise_importNames (names : List String) : (importNames names).Pairwise (· < ·) := by
  rw [importNames]
  induction (names.map bare).filter (· ≠ "") with
  | nil => simp
  | cons x l ih => exact pairwise_insertName ih

end EloquentEntity.ClassName

import EloquentEntity.Casts.Resolver
import Mathlib.Data.List.Nodup
import Mathlib.Data.List.Perm.Subperm
import Mathlib.Data.List.TakeWhile
import Mathlib.Data.Set.Insert

/-!
Chains of cast classes, each of which may name the class to ask instead.

`Chain` is what a chain means without any memory: it is followed from class to class until one gives
its type or the system does not answer for its source, and it has no type once a class stands on it
a second time. The classes that lead to a name form a trail. Two classes of a trail never have one
file, because a file names the same class whatever name it was found under; so a trail is no longer
than there are files, save for one class that it meets again.
-/

namespace EloquentEntity.ClassName

@[simp] lemma bare_bare (name : String) : bare (bare name) = bare name := by
  have h : (name.toList.dropWhile (· == '\\')).dropWhile (· == '\\') =
      name.toList.dropWhile (· == '\\') :=
    List.dropWhile_eq_self_iff.mpr fun hl => List.dropWhile_get_zero_not _ _ hl
  simp [bare, h]

end EloquentEntity.ClassName

namespace EloquentEntity.Casts

open ClassName

/-- What a class comes to by itself, if it names no other one. -/
def Finding.outcome? : Finding → Option Outcome
  | .type t => some (.ok t)
  | .error e => some (.error e)
  | .follow _ => none

lemma Finding.outcome?_eq_none_iff {f : Finding} :
    f.outcome? = none ↔ ∃ target, f = .follow target := by
  cases f <;> simp [outcome?]

/-- What a chain on which the classes `met` have stood already comes to. -/
inductive Chain (look : String → Finding) : Set String → String → Outcome → Prop
  | again {met name} : bare name ∈ met → Chain look met name (.ok none)
  | ends {met name o} : bare name ∉ met → (look (bare name)).outcome? = some o →
      Chain look met name o
  | follows {met name target o} : bare name ∉ met → look (bare name) = .follow target →
      Chain look (insert (bare name) met) target o → Chain look met name o

/-- A class on the chain that starts at a name. -/
inductive Visits (look : String → Finding) : String → String → Prop
  | here (name) : Visits look name (bare name)
  | later {name target m} : look (bare name) = .follow target → Visits look target m →
      Visits look name m

variable {look : String → Finding} {met : Set String} {active : List String}
  {name target x m : String} {t u : Outcome}

/-! ### The meaning of a chain -/

lemma Chain.unique (h : Chain look met name t) (h' : Chain look met name u) : t = u := by
  induction h generalizing u with
  | again hm =>
    cases h' with
    | again => rfl
    | ends hn => exact absurd hm hn
    | follows hn => exact absurd hm hn
  | ends hn hl =>
    cases h' with
    | again hm => exact absurd hm hn
    | ends _ hl' => exact Option.some.inj (hl.symm.trans hl')
    | follows _ hl' => exact absurd (hl' ▸ hl) (by simp [Finding.outcome?])
  | follows hn hl _ ih =>
    cases h' with
    | again hm => exact absurd hm hn
    | ends _ hl' => exact absurd (hl ▸ hl') (by simp [Finding.outcome?])
    | follows _ hl' hc =>
      obtain rfl := Finding.follow.inj (hl.symm.trans hl')
      exact ih hc

lemma Chain.of_bare_eq {name' : String} (hb : bare name = bare name')
    (h : Chain look met name t) : Chain look met name' t := by
  cases h with
  | again hm => exact .again (hb ▸ hm)
  | ends hn hl => exact .ends (hb ▸ hn) (hb ▸ hl)
  | follows hn hl hc => exact .follows (hb ▸ hn) (hb ▸ hl) (hb ▸ hc)

lemma chain_bare : Chain look met (bare name) t ↔ Chain look met name t :=
  ⟨.of_bare_eq (bare_bare name), .of_bare_eq (bare_bare name).symm⟩

lemma chain_ends_iff (hn : bare name ∉ met) (hl : (look (bare name)).outcome? = some u) :
    Chain look met name t ↔ t = u :=
  ⟨fun h => h.unique (.ends hn hl), fun h => h ▸ .ends hn hl⟩

lemma chain_follow_iff_insert (hn : bare name ∉ met) (hl : look (bare name) = .follow target) :
    Chain look met name t ↔ Chain look (insert (bare name) met) target t := by
  refine ⟨fun h => ?_, .follows hn hl⟩
  cases h with
  | again hm => exact absurd hm hn
  | ends _ hl' => exact absurd (hl ▸ hl') (by simp [Finding.outcome?])
  | follows _ hl' hc =>
    obtain rfl := Finding.follow.inj (hl.symm.trans hl')
    exact hc

/-- A class that leads to one already met may itself count as met: past it the chain ends
without a type either way. -/
lemma chain_insert_iff (hx : look x = .follow target) (ht : bare target ∈ met) :
    Chain look (insert x met) name t ↔ Chain look met name t := by
  constructor <;> intro h
  · generalize hs : insert x met = met' at h
    induction h generalizing met with
    | @again met' name hm =>
      subst hs
      rcases hm with he | hm
      · by_cases hn : bare name ∈ met
        · exact .again hn
        · exact .follows hn (he ▸ hx) (.again (Set.mem_insert_of_mem _ ht))
      · exact .again hm
    | ends hn hl => subst hs; exact .ends (fun hm => hn (Set.mem_insert_of_mem x hm)) hl
    | follows hn hl _ ih =>
      subst hs
      exact .follows (fun hm => hn (Set.mem_insert_of_mem x hm)) hl
        (ih (Set.mem_insert_of_mem _ ht) (Set.insert_comm ..))
  · induction h with
    | again hm => exact .again (Set.mem_insert_of_mem x hm)
    | ends hn hl =>
      refine .ends ?_ hl
      rintro (rfl | hm)
      · exact absurd (hx ▸ hl) (by simp [Finding.outcome?])
      · exact hn hm
    | @follows met name next t hn hl hc ih =>
      by_cases he : bare name = x
      · obtain rfl : next = target := by
          rw [he] at hl; exact Finding.follow.inj (hl.symm.trans hx)
        obtain rfl : t = .ok none := hc.unique (.again (Set.mem_insert_of_mem _ ht))
        exact .again (he ▸ Set.mem_insert _ _)
      · refine .follows (by simp [he, hn]) hl ?_
        rw [Set.insert_comm]
        exact ih (Set.mem_insert_of_mem _ ht)

/-- A class has the type of the class that it names. -/
lemma chain_follow_iff (hl : look (bare name) = .follow target) :
    Chain look ∅ name t ↔ Chain look ∅ target t := by
  rw [chain_follow_iff_insert (Set.notMem_empty _) hl, insert_empty_eq]
  by_cases he : bare target = bare name
  · have hl' : look (bare target) = .follow target := he ▸ hl
    rw [chain_follow_iff_insert (Set.notMem_empty _) hl', insert_empty_eq, he]
  have hn : bare target ∉ ({bare name} : Set String) := he
  rcases hnext : (look (bare target)).outcome? with _ | u
  · obtain ⟨next, hnext⟩ := Finding.outcome?_eq_none_iff.mp hnext
    rw [chain_follow_iff_insert hn hnext, chain_follow_iff_insert (Set.notMem_empty _) hnext,
      Set.pair_comm, insert_empty_eq, chain_insert_iff hl (Set.mem_singleton _)]
  · rw [chain_ends_iff hn hnext, chain_ends_iff (Set.notMem_empty _) hnext]

/-- A chain is decided by what is found out about the classes on it. -/
lemma Chain.congr {look' : String → Finding} (h : Chain look met name t)
    (hl : ∀ m, Visits look name m → look' m = look m) : Chain look' met name t := by
  induction h with
  | again hm => exact .again hm
  | ends hn he => exact .ends hn ((congrArg _ (hl _ (.here _))).trans he)
  | follows hn he _ ih =>
    exact .follows hn ((hl _ (.here _)).trans he) (ih fun m hv => hl m (.later he hv))

lemma Chain.exists_error {e : FileError} (h : Chain look met name t) (ht : t = .error e) :
    ∃ m, Visits look name m ∧ look m = .error e := by
  induction h with
  | again => cases ht
  | @ends _ name _ _ hl =>
    refine ⟨bare name, .here name, ?_⟩
    cases hlook : look (bare name) <;> simp_all [Finding.outcome?]
  | follows _ hl _ ih =>
    obtain ⟨m, hm, he⟩ := ih ht
    exact ⟨m, .later hl hm, he⟩

/-- A chain fails where it meets a class that does. -/
lemma chain_error_iff {e : FileError} :
    Chain look ∅ name (.error e) ↔ ∃ m, Visits look name m ∧ look m = .error e := by
  refine ⟨fun h => h.exists_error rfl, ?_⟩
  rintro ⟨m, hm, he⟩
  induction hm with
  | here => exact .ends (Set.notMem_empty _) (by rw [he]; rfl)
  | later hl _ ih => exact (chain_follow_iff hl).mpr (ih he)

/-! ### Trails -/

/-- The classes that lead to a name one after the other, the last first. -/
inductive Trail (look : String → Finding) : List String → String → Prop
  | start (name : String) : Trail look [] name
  | step {active : List String} {name target : String} : Trail look active name →
      bare name ∉ active → look (bare name) = .follow target →
      Trail look (bare name :: active) target

/-- On a trail, whether the classes before have been met or not makes no difference. -/
lemma Trail.chain_iff (h : Trail look active name) :
    Chain look {a | a ∈ active} name t ↔ Chain look ∅ name t := by
  induction h with
  | start => simp
  | step _ hn hl ih =>
    rw [← chain_follow_iff hl, ← ih, chain_follow_iff_insert hn hl]
    congr! 1
    ext a
    simp

/-- Every class of a trail names a class of the trail, or the one that the trail leads to. -/
lemma Trail.follow (h : Trail look active name) {a : String} (ha : a ∈ active) :
    ∃ target, look a = .follow target ∧ bare target ∈ bare name :: active := by
  induction h with
  | start => simp at ha
  | @step active name target _ hn hl ih =>
    rcases List.mem_cons.mp ha with rfl | ha
    · exact ⟨target, hl, by simp⟩
    · obtain ⟨next, hnext, hm⟩ := ih ha
      exact ⟨next, hnext, List.mem_cons_of_mem _ hm⟩

/-- Findings are read from files: a class that names another one has a file, and classes with one
file say the same. -/
structure ReadFrom {F : Type} (look : String → Finding) (fileOf : String → Option F)
    (files : List F) : Prop where
  file_of_follow : ∀ {n target}, look n = .follow target → ∃ f ∈ files, fileOf n = some f
  look_eq : ∀ {n n' f}, fileOf n = some f → fileOf n' = some f → look n = look n'

section ReadFrom

variable {F : Type} {fileOf : String → Option F} {files : List F}

/-- The classes of a trail have files, all different while the trail meets no class again. -/
lemma Trail.files_nodup (hr : ReadFrom look fileOf files) (h : Trail look active name)
    (hn : bare name ∉ active) : (active.map fileOf).Nodup := by
  induction h with
  | start => simp
  | @step active name target h hn' hl ih =>
    rw [List.map_cons, List.nodup_cons]
    refine ⟨fun hm => ?_, ih hn'⟩
    obtain ⟨a, ha, hfa⟩ := List.mem_map.mp hm
    obtain ⟨f, -, hf⟩ := hr.file_of_follow hl
    obtain ⟨next, hnext, hmem⟩ := h.follow ha
    have : look a = look (bare name) := hr.look_eq (hfa.trans hf) hf
    obtain rfl := Finding.follow.inj (hnext.symm.trans (this.trans hl))
    exact hn hmem

lemma Trail.length_le (hr : ReadFrom look fileOf files) (h : Trail look active name)
    (hn : bare name ∉ active) : active.length ≤ files.length := by
  have hsub : active.map fileOf ⊆ files.map some := by
    intro f hf
    obtain ⟨a, ha, rfl⟩ := List.mem_map.mp hf
    obtain ⟨target, hl, -⟩ := h.follow ha
    obtain ⟨g, hg, he⟩ := hr.file_of_follow hl
    exact he ▸ List.mem_map_of_mem hg
  have := ((h.files_nodup hr hn).subperm hsub).length_le
  simpa using this

lemma Trail.length_le_succ (hr : ReadFrom look fileOf files) (h : Trail look active name) :
    active.length ≤ files.length + 1 := by
  cases h with
  | start => simp
  | step h hn _ => simpa using h.length_le hr hn

/-- A chain ends with a trail that holds every class on it. -/
lemma Chain.exists_trail (hc : Chain look met name t) (hmet : met = {a | a ∈ active})
    (h : Trail look active name) :
    ∃ active' name', Trail look active' name' ∧ active ⊆ bare name' :: active' ∧
      ∀ m, Visits look name m → m ∈ bare name' :: active' := by
  induction hc generalizing active with
  | @again met name hm =>
    subst hmet
    -- The trail is closed: what its classes name stands on it.
    have hclosed : ∀ n m, Visits look n m → bare n ∈ active → m ∈ active := by
      intro n m hv
      induction hv with
      | here => exact id
      | later hl _ ih =>
        intro hn
        obtain ⟨next, hnext, hmem⟩ := h.follow hn
        obtain rfl := Finding.follow.inj (hnext.symm.trans hl)
        exact ih ((List.mem_cons.mp hmem).elim (fun he => he ▸ hm) id)
    exact ⟨active, name, h, List.subset_cons_self .., fun m hv =>
      List.mem_cons_of_mem _ (hclosed name m hv hm)⟩
  | @ends met name t hn hl =>
    refine ⟨active, name, h, List.subset_cons_self .., fun m hv => ?_⟩
    cases hv with
    | here => simp
    | later hl' => exact absurd (hl' ▸ hl) (by simp [Finding.outcome?])
  | @follows met name target t hn hl hc ih =>
    subst hmet
    obtain ⟨active', name', h', hsub, hall⟩ :=
      @ih (bare name :: active) (by ext a; simp) (h.step hn hl)
    refine ⟨active', name', h', fun a ha => hsub (List.mem_cons_of_mem _ ha), fun m hv => ?_⟩
    cases hv with
    | here => exact hsub (by simp)
    | later hl' hv =>
      obtain rfl := Finding.follow.inj (hl.symm.trans hl')
      exact hall m hv

/-- A chain has at most one class more than there are files. -/
lemma Chain.visited_length_le (hr : ReadFrom look fileOf files) (hc : Chain look ∅ name t)
    {visited : List String} (hnd : visited.Nodup) (hv : ∀ m ∈ visited, Visits look name m) :
    visited.length ≤ files.length + 1 := by
  obtain ⟨active, name', h, -, hall⟩ := hc.exists_trail (by simp) (.start name)
  by_cases hn : bare name' ∈ active
  · have hsub : visited ⊆ active := fun m hm =>
      (List.mem_cons.mp (hall m (hv m hm))).elim (fun he => he ▸ hn) id
    exact (hnd.subperm hsub).length_le.trans (h.length_le_succ hr)
  · have hsub : visited ⊆ bare name' :: active := fun m hm => hall m (hv m hm)
    have := (hnd.subperm hsub).length_le
    have := h.length_le hr hn
    simp at *
    omega

end ReadFrom

end EloquentEntity.Casts

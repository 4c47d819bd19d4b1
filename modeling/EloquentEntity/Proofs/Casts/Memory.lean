import EloquentEntity.Proofs.Casts.Resolver
import Mathlib.Data.Finset.Basic

/-!
What a resolver remembers while the files of its project change.

A call is told here by the memory before and after it, with the classes whose look-up is going on
in a set and with every source that is loaded. Such a call always ends, whatever is remembered from
other files, and it is the resolver's call. It leaves the set of look-ups as it was, and remembers
nothing about the classes in it; so nothing that is known is ever put anew, and no class that is
known or in the set is looked up again. A call that fails breaks off the look-ups of all classes on
its way. They are remembered no more than before, and their sources may be loaded another time.
-/

namespace EloquentEntity.Casts

open ClassName

/-- What a resolver holds, and what it did to come by it. -/
structure Memory where
  /-- The answers given. -/
  known : OrderedMap String (Option String)
  /-- The classes whose look-up is going on. -/
  active : Finset String
  /-- The sources loaded in look-ups that go on or had an answer: for which class, and from where. -/
  loads : List (String × Path)
  /-- Those loaded in look-ups that were broken off. -/
  broken : List (String × Path)
  log : List LogEntry

namespace Memory

def start : Memory := ⟨∅, ∅, [], [], []⟩

def tell (s : Memory) (text : String) : Memory := { s with log := s.log ++ [.debug speaker text] }

/-- The look-up of a class begins: its source is loaded, if the class can have one. -/
def enter (files : FileTree) (root : Path) (s : Memory) (name : String) : Memory :=
  { s with
    active := insert name s.active
    loads := s.loads ++ (sourcePath? root name).toList.map (name, ·)
    log := s.log ++ (examine files root name).2 }

/-- The look-up of a class ends. An answer is remembered. -/
def leave (s : Memory) (name : String) : Outcome → Memory
  | .ok t =>
    { s with known := s.known.put name t, active := s.active.erase name }.tell
      (s!"Custom cast {name} resolved to " ++ t.getD "None")
  | .error _ =>
    { s with
      active := s.active.erase name
      loads := s.loads.filter (·.1 ≠ name)
      broken := s.broken ++ s.loads.filter (·.1 = name) }

end Memory

/-- A call for a class, what comes of it, and the memory before and after. -/
inductive Resolves (files : FileTree) (root : Path) : Memory → String → Outcome → Memory → Prop
  | recalls {s name t} : s.known.get? (bare name) = some t → Resolves files root s name (.ok t) s
  | meets {s name} : s.known.get? (bare name) = none → bare name ∈ s.active →
      Resolves files root s name (.ok none) (s.tell s!"Cast cycle detected at {bare name}")
  | ends {s name o} : s.known.get? (bare name) = none → bare name ∉ s.active →
      (findings files root (bare name)).outcome? = some o →
      Resolves files root s name o ((s.enter files root (bare name)).leave (bare name) o)
  | follows {s s' name target o} : s.known.get? (bare name) = none → bare name ∉ s.active →
      findings files root (bare name) = .follow target →
      Resolves files root (s.enter files root (bare name)) target o s' →
      Resolves files root s name o (s'.leave (bare name) o)

/-- Calls one after the other, each on the files as they are at its time, and what comes of them. -/
inductive Serves (root : Path) :
    Memory → List (FileTree × String) → List Outcome → Memory → Prop
  | nil (s) : Serves root s [] [] s
  | cons {files s name o s' calls os s''} : Resolves files root s name o s' →
      Serves root s' calls os s'' → Serves root s ((files, name) :: calls) (o :: os) s''

variable {files : FileTree} {root : Path} {s s' s'' : Memory} {name n : String}
  {t : Option String} {o u : Outcome} {os us : List Outcome} {calls more : List (FileTree × String)}

/-! ### The resolver's calls -/

lemma Resolves.unique (h : Resolves files root s name o s')
    (h' : Resolves files root s name u s'') : u = o ∧ s'' = s' := by
  induction h generalizing u s'' with
  | recalls hk =>
    cases h' with
    | recalls hk' => exact ⟨congrArg Except.ok (Option.some.inj (hk'.symm.trans hk)), rfl⟩
    | meets hk' | ends hk' | follows hk' => exact absurd (hk.symm.trans hk') (by simp)
  | meets hk ha =>
    cases h' with
    | recalls hk' => exact absurd (hk.symm.trans hk') (by simp)
    | meets => exact ⟨rfl, rfl⟩
    | ends _ hn | follows _ hn => exact absurd ha hn
  | ends hk hn hl =>
    cases h' with
    | recalls hk' => exact absurd (hk.symm.trans hk') (by simp)
    | meets _ ha => exact absurd ha hn
    | ends _ _ hl' =>
      obtain rfl := Option.some.inj (hl.symm.trans hl')
      exact ⟨rfl, rfl⟩
    | follows _ _ hl' => exact absurd (hl' ▸ hl) (by simp [Finding.outcome?])
  | follows hk hn hl _ ih =>
    cases h' with
    | recalls hk' => exact absurd (hk.symm.trans hk') (by simp)
    | meets _ ha => exact absurd ha hn
    | ends _ _ hl' => exact absurd (hl ▸ hl') (by simp [Finding.outcome?])
    | follows _ _ hl' hc =>
      obtain rfl := Finding.follow.inj (hl.symm.trans hl')
      obtain ⟨rfl, rfl⟩ := ih hc
      exact ⟨rfl, rfl⟩

lemma Serves.unique (h : Serves root s calls os s') (h' : Serves root s calls us s'') :
    us = os ∧ s'' = s' := by
  induction h generalizing us s'' with
  | nil => cases h'; exact ⟨rfl, rfl⟩
  | cons h _ ih =>
    cases h' with
    | cons hc hcs =>
      obtain ⟨rfl, rfl⟩ := h.unique hc
      obtain ⟨rfl, rfl⟩ := ih hcs
      exact ⟨rfl, rfl⟩

namespace Resolver

/-- The resolver's function is such a call: its limit is never reached, whatever is known. -/
lemma resolveFrom_resolves {F : Type} {fileOf : String → Option F} {sources : List F}
    (hr : ReadFrom (findings files root) fileOf sources) (fuel : Nat) (active : List String)
    (ha : ∀ a, a ∈ s.active ↔ a ∈ active) (ht : Trail (findings files root) active name)
    (hfuel : sources.length + 2 ≤ fuel + active.length) :
    ∃ s', Resolves files root s name
        (resolveFrom (examine files root) fuel active s.known name).outcome s' ∧
      s'.known = (resolveFrom (examine files root) fuel active s.known name).known ∧
      s'.log = s.log ++ (resolveFrom (examine files root) fuel active s.known name).log := by
  induction fuel generalizing s active name with
  | zero =>
    -- The trail bounds the depth of a call, and it is a matter of the files alone.
    have := ht.length_le_succ hr
    omega
  | succ fuel ih =>
    rw [resolveFrom]
    rcases hk : s.known.get? (bare name) with _ | t
    · by_cases hm : bare name ∈ active
      · -- The class is being resolved already.
        simpa [hm] using ⟨_, .meets hk ((ha _).mpr hm), rfl, rfl⟩
      · have hn : bare name ∉ s.active := fun h => hm ((ha _).mp h)
        rcases hl : (examine files root (bare name)).1 with t | e | target
        · simpa [hm, hl, Answer.remember] using ⟨_, .ends hk hn (congrArg Finding.outcome? hl), rfl,
            by simp [Memory.leave, Memory.enter, Memory.tell]⟩
        · simpa [hm, hl, Answer.remember] using ⟨_, .ends hk hn (congrArg Finding.outcome? hl), rfl,
            by simp [Memory.leave, Memory.enter]⟩
        · obtain ⟨s', hc, hknown, hlog⟩ := ih (bare name :: active)
            (s := s.enter files root (bare name)) (by simp [Memory.enter, ha]) (ht.step hm hl)
            (by simp only [List.length_cons]; omega)
          have hfollows := Resolves.follows hk hn hl hc
          have hinner : (s.enter files root (bare name)).known = s.known := rfl
          rw [hinner] at hc hknown hlog hfollows
          rcases ho : (resolveFrom (examine files root) fuel (bare name :: active) s.known
            target).outcome with e | t
          · rw [ho] at hfollows
            simpa [hm, hl, Answer.remember, ho] using ⟨_, hfollows, hknown,
              by simp [Memory.leave, hlog, Memory.enter]⟩
          · rw [ho] at hfollows
            simpa [hm, hl, Answer.remember, ho] using ⟨_, hfollows,
              by simp [Memory.leave, Memory.tell, hknown],
              by simp [Memory.leave, Memory.tell, hlog, Memory.enter]⟩
    · exact ⟨s, .recalls hk, rfl, (List.append_nil _).symm⟩

end Resolver

/-! ### What a call keeps -/

/-- What is known stays known, and nothing becomes known about a class while its look-up is going
on. -/
structure Memory.Grows (s s' : Memory) : Prop where
  active_eq : s'.active = s.active
  keeps : ∀ {n t}, s.known.get? n = some t → s'.known.get? n = some t
  waits : ∀ {n}, n ∈ s.active → s.known.get? n = none → s'.known.get? n = none

lemma Memory.Grows.trans (h : s.Grows s') (h' : s'.Grows s'') : s.Grows s'' where
  active_eq := h'.active_eq.trans h.active_eq
  keeps hk := h'.keeps (h.keeps hk)
  waits ha hk := h'.waits (h.active_eq ▸ ha) (h.waits ha hk)

lemma Memory.Grows.leave (hk : s.known.get? name = none) (hn : name ∉ s.active)
    (h : (s.enter files root name).Grows s') (o : Outcome) : s.Grows (s'.leave name o) where
  active_eq := by
    have hactive : (s'.leave name o).active = s'.active.erase name := by cases o <;> rfl
    rw [hactive, h.active_eq]
    exact Finset.erase_insert hn
  keeps {m u} hm := by
    have hne : name ≠ m := by
      rintro rfl
      exact absurd (hm.symm.trans hk) (by simp)
    cases o with
    | ok t =>
      change (s'.known.put name t).get? m = some u
      rw [OrderedMap.get?_put, if_neg hne]
      exact h.keeps hm
    | error => exact h.keeps hm
  waits {m} hm hkm := by
    have hne : name ≠ m := fun he => hn (he ▸ hm)
    have hwaits := h.waits (Finset.mem_insert_of_mem hm) hkm
    cases o with
    | ok t =>
      change (s'.known.put name t).get? m = none
      rw [OrderedMap.get?_put, if_neg hne]
      exact hwaits
    | error => exact hwaits

lemma Resolves.grows (h : Resolves files root s name o s') : s.Grows s' := by
  induction h with
  -- A cycle is not remembered where it is met, but by the look-up that it leads back to.
  | recalls | meets => exact ⟨rfl, id, fun _ => id⟩
  | ends hk hn => exact .leave hk hn ⟨rfl, id, fun _ => id⟩ _
  | follows hk hn _ _ ih => exact .leave hk hn ih _

/-- The answer is known after the call, unless the call met a look-up that was going on. -/
lemma Resolves.get?_bare (h : Resolves files root s name o s') (hn : bare name ∉ s.active)
    (ho : o = .ok t) : s'.known.get? (bare name) = some t := by
  have hput (m : OrderedMap String (Option String)) :
      (m.put (bare name) t).get? (bare name) = some t := by
    rw [OrderedMap.get?_put, if_pos rfl]
  subst ho
  cases h with
  | recalls hk => exact hk
  | meets _ ha => exact absurd ha hn
  | ends | follows => exact hput _

/-- A call fails because of a class on the chain as the files are at its time. -/
lemma Resolves.blocked {e : FileError} (h : Resolves files root s name o s') (ho : o = .error e) :
    Blocked files root name := by
  induction h with
  | recalls | meets => cases ho
  | @ends _ name _ _ _ hl =>
    refine exists_chain_error_iff.mp ⟨e, ho ▸ .ends (Set.notMem_empty _) hl⟩
  | follows _ _ hl _ ih =>
    obtain ⟨m, hm, hr⟩ := ih ho
    exact ⟨m, .later hl hm, hr⟩

lemma Resolves.known_eq {e : FileError} (h : Resolves files root s name o s') (ho : o = .error e) :
    s'.known = s.known := by
  induction h with
  | recalls | meets => cases ho
  | ends => subst ho; rfl
  | follows _ _ _ _ ih => subst ho; exact ih rfl

/-- Sources were loaded once each, namely those of the classes that are known or being looked
up. -/
structure Memory.Tidy (root : Path) (s : Memory) : Prop where
  nodup : (s.loads.map Prod.fst).Nodup
  mem_loads_iff : ∀ {n p}, (n, p) ∈ s.loads ↔
    sourcePath? root n = some p ∧ (n ∈ s.active ∨ n ∈ s.known.keys)

lemma Memory.tidy_start : start.Tidy root :=
  ⟨List.nodup_nil, fun {n p} => by
    change (n, p) ∈ [] ↔ _ ∧ (n ∈ (∅ : Finset String) ∨ n ∈ [])
    simp⟩

lemma Memory.Tidy.enter (h : s.Tidy root) (hk : s.known.get? name = none) (hn : name ∉ s.active) :
    (s.enter files root name).Tidy root where
  nodup := by
    have hnew : ∀ m p, (m, p) ∈ s.loads → m ≠ name := by
      rintro m p hm rfl
      exact (h.mem_loads_iff.mp hm).2.elim hn (OrderedMap.get?_eq_none_iff.mp hk)
    rw [Memory.enter, List.map_append]
    rcases sourcePath? root name with _ | p
    · simpa using h.nodup
    · simpa [List.nodup_append, h.nodup] using hnew
  mem_loads_iff {m p} := by
    have hmem : (m, p) ∈ (s.enter files root name).loads ↔
        (m, p) ∈ s.loads ∨ sourcePath? root m = some p ∧ m = name := by
      by_cases he : name = m
      · simp [Memory.enter, he]
      · simp [Memory.enter, he, Ne.symm he]
    rw [hmem, h.mem_loads_iff, ← and_or_left]
    change _ ↔ _ ∧ (m ∈ insert name s.active ∨ m ∈ s.known.keys)
    rw [Finset.mem_insert, or_assoc (a := m = name), or_comm (a := m = name)]

lemma Memory.Tidy.leave (h : s.Tidy root) (ha : name ∈ s.active) (hk : s.known.get? name = none)
    (o : Outcome) : (s.leave name o).Tidy root := by
  have hactive (m : String) (hm : m ≠ name) : m ∈ s.active.erase name ↔ m ∈ s.active := by
    simp [hm]
  cases o with
  | ok t =>
    refine ⟨h.nodup, fun {m p} => ?_⟩
    have hkeys : m ∈ (s.known.put name t).keys ↔ m = name ∨ m ∈ s.known.keys := by
      rw [OrderedMap.keys_put]
      split
      · next hm => exact ⟨.inr, fun h => h.elim (fun he => he ▸ hm) id⟩
      · simp [or_comm]
    change (m, p) ∈ s.loads ↔ sourcePath? root m = some p ∧
      (m ∈ s.active.erase name ∨ m ∈ (s.known.put name t).keys)
    rw [h.mem_loads_iff, hkeys]
    by_cases hm : m = name
    · simp [hm, ha]
    · simp [hm]
  | error e =>
    refine ⟨h.nodup.sublist (List.filter_sublist.map _), fun {m p} => ?_⟩
    change (m, p) ∈ s.loads.filter (·.1 ≠ name) ↔ sourcePath? root m = some p ∧
      (m ∈ s.active.erase name ∨ m ∈ s.known.keys)
    rw [List.mem_filter, h.mem_loads_iff]
    by_cases hm : m = name
    · subst hm
      simp [OrderedMap.get?_eq_none_iff.mp hk]
    · simp [hm]

/-- Within a look-up the class is waited for. -/
lemma Resolves.waits (h : Resolves files root (s.enter files root (bare name)) n o s')
    (hk : s.known.get? (bare name) = none) :
    bare name ∈ s'.active ∧ s'.known.get? (bare name) = none := by
  have hmem : bare name ∈ (s.enter files root (bare name)).active := Finset.mem_insert_self ..
  exact ⟨h.grows.active_eq ▸ hmem, h.grows.waits hmem hk⟩

lemma Resolves.tidy (h : Resolves files root s name o s') (hs : s.Tidy root) : s'.Tidy root := by
  induction h with
  | recalls => exact hs
  | meets => exact ⟨hs.nodup, hs.mem_loads_iff⟩
  | ends hk hn => exact (hs.enter hk hn).leave (Finset.mem_insert_self ..) hk _
  | follows hk hn _ h ih =>
    obtain ⟨ha, hk'⟩ := h.waits hk
    exact (ih (hs.enter hk hn)).leave ha hk' _

/-! ### Look-ups that are broken off -/

/-- The sources whose look-ups a call broke off: of each class one at most, of none that was being
looked up before, and none at all if there is an answer. -/
structure Memory.Breaks (s s' : Memory) (o : Outcome) (ls : List (String × Path)) : Prop where
  broken_eq : s'.broken = s.broken ++ ls
  nodup : (ls.map Prod.fst).Nodup
  notMem : ∀ n ∈ ls.map Prod.fst, n ∉ s.active
  eq_nil : ∀ t, o = .ok t → ls = []

lemma Memory.Breaks.leave {ls : List (String × Path)} (hn : name ∉ s.active)
    (h : (s.enter files root name).Breaks s' o ls) (hs' : s'.Tidy root) :
    ∃ ls, s.Breaks (s'.leave name o) o ls := by
  cases o with
  | ok t =>
    obtain rfl := h.eq_nil t rfl
    exact ⟨[], h.broken_eq, List.nodup_nil, List.forall_mem_nil _, fun _ _ => rfl⟩
  | error e =>
    have hname : ∀ n ∈ (s'.loads.filter (·.1 = name)).map Prod.fst, n = name := by
      intro n hn
      obtain ⟨l, hl, rfl⟩ := List.mem_map.mp hn
      simpa using (List.mem_filter.mp hl).2
    have hother : ∀ n ∈ ls.map Prod.fst, n ≠ name ∧ n ∉ s.active := by
      intro n hm
      have hnot := h.notMem n hm
      rw [Memory.enter, Finset.mem_insert, not_or] at hnot
      exact hnot
    refine ⟨ls ++ s'.loads.filter (·.1 = name), ?_, ?_, fun n hm => ?_, fun t ht => nomatch ht⟩
    · change s'.broken ++ _ = _
      rw [h.broken_eq, List.append_assoc]
      rfl
    · rw [List.map_append, List.nodup_append]
      refine ⟨h.nodup, hs'.nodup.sublist (List.filter_sublist.map _), fun n hm m hm' he => ?_⟩
      exact (hother n hm).1 (he.trans (hname m hm'))
    · rw [List.map_append, List.mem_append] at hm
      rcases hm with hm | hm
      · exact (hother n hm).2
      · exact hname n hm ▸ hn

lemma Resolves.exists_breaks (h : Resolves files root s name o s') (hs : s.Tidy root) :
    ∃ ls, s.Breaks s' o ls := by
  have hnone {s : Memory} {o : Outcome} : s.Breaks s o [] :=
    ⟨(List.append_nil _).symm, List.nodup_nil, List.forall_mem_nil _, fun _ _ => rfl⟩
  induction h with
  | recalls => exact ⟨[], hnone⟩
  | meets =>
    exact ⟨[], (List.append_nil _).symm, List.nodup_nil, List.forall_mem_nil _, fun _ _ => rfl⟩
  | ends hk hn => exact hnone.leave hn (hs.enter hk hn)
  | follows hk hn _ h ih =>
    obtain ⟨ls, hls⟩ := ih (hs.enter hk hn)
    exact hls.leave hn (h.tidy (hs.enter hk hn))

/-! ### Calls one after the other -/

lemma Serves.grows (h : Serves root s calls os s') : s.Grows s' := by
  induction h with
  | nil => exact ⟨rfl, id, fun _ => id⟩
  | cons h _ ih => exact h.grows.trans ih

lemma Serves.tidy (h : Serves root s calls os s') (hs : s.Tidy root) : s'.Tidy root := by
  induction h with
  | nil => exact hs
  | cons h _ ih => exact ih (h.tidy hs)

/-- A call is answered with what is known about the class in the end, or fails because of a class on
the chain at its time. -/
def Settles (root : Path) (known : OrderedMap String (Option String)) (call : FileTree × String) :
    Outcome → Prop
  | .ok t => known.get? (bare call.2) = some t
  | .error _ => Blocked call.1 root call.2

lemma Serves.settles (h : Serves root s calls os s') (ha : s.active = ∅) :
    List.Forall₂ (Settles root s'.known) calls os := by
  induction h with
  | nil => exact .nil
  | @cons _ _ _ o _ _ _ _ h hs ih =>
    refine .cons ?_ (ih (h.grows.active_eq.trans ha))
    cases o with
    | ok t => exact hs.grows.keeps (h.get?_bare (ha ▸ Finset.notMem_empty _) rfl)
    | error e => exact h.blocked rfl

/-- Each call that fails breaks off one look-up of a class at most. -/
lemma Serves.count_broken_le (h : Serves root s calls os s') (hs : s.Tidy root) (n : String) :
    (s'.broken.map Prod.fst).count n ≤
      (s.broken.map Prod.fst).count n + os.countP fun o => !o.isOk := by
  induction h with
  | nil => exact Nat.le_refl _
  | @cons _ _ _ o _ _ _ _ h _ ih =>
    obtain ⟨ls, hls⟩ := h.exists_breaks hs
    have hcount : (ls.map Prod.fst).count n ≤ if (!o.isOk) = true then 1 else 0 := by
      cases o with
      | ok t => simp [hls.eq_nil t rfl]
      | error e => simpa [Except.isOk, Except.toBool] using List.nodup_iff_count_le_one.mp hls.nodup n
    have hrest := ih (h.tidy hs)
    rw [hls.broken_eq, List.map_append, List.count_append] at hrest
    rw [List.countP_cons]
    omega

/-! ### Calls on changing files -/

namespace Resolver

/-- Calls one after the other, each on the files as they are at its time: what comes of them, the
resolver after them, and what there is to say. -/
def serve (r : Resolver) : List (FileTree × String) → List Outcome × Resolver × List LogEntry
  | [] => ([], r, [])
  | (files, name) :: calls =>
    let (o, r, log) := r.resolve files name
    let (os, r, more) := r.serve calls
    (o :: os, r, log ++ more)

lemma serve_append (r : Resolver) (calls more : List (FileTree × String)) :
    (r.serve (calls ++ more)).2.1 = ((r.serve calls).2.1.serve more).2.1 := by
  induction calls generalizing r with
  | nil => rfl
  | cons c calls ih => exact ih _

lemma fst_serve_cons (r : Resolver) (files : FileTree) (name : String)
    (calls : List (FileTree × String)) : (r.serve ((files, name) :: calls)).1 =
      (r.resolve files name).1 :: ((r.resolve files name).2.1.serve calls).1 := rfl

/-- What comes of a resolver's calls are the calls on its memory, with no look-up going on between
them. -/
lemma serve_serves (r : Resolver) (hk : s.known = r.known) (ha : s.active = ∅)
    (calls : List (FileTree × String)) :
    ∃ s', Serves r.root s calls (r.serve calls).1 s' ∧ s'.known = (r.serve calls).2.1.known ∧
      s'.log = s.log ++ (r.serve calls).2.2 := by
  induction calls generalizing r s with
  | nil => exact ⟨s, .nil s, hk, (List.append_nil _).symm⟩
  | cons c calls ih =>
    have hlimit := c.1.length_filePlaces_le
    obtain ⟨s₁, hc, hknown, hlog⟩ := resolveFrom_resolves (s := s)
      (readFrom_findings c.1 r.root) (chainLimit c.1) [] (by simp [ha]) (.start c.2)
      (by simp [chainLimit]; omega)
    rw [hk] at hc hknown hlog
    obtain ⟨s₂, hcs, hknown', hlog'⟩ :=
      ih (r.resolve c.1 c.2).2.1 hknown (hc.grows.active_eq.trans ha)
    refine ⟨s₂, .cons hc hcs, hknown', ?_⟩
    rw [hlog', hlog, List.append_assoc]
    rfl

/-- A resolver remembers nothing of a call that fails. -/
lemma resolve_eq_of_error {r : Resolver} {e : FileError} (h : (r.resolve files name).1 = .error e) :
    (r.resolve files name).2.1 = r := by
  have hlimit := files.length_filePlaces_le
  obtain ⟨s', hresolves, hknown, -⟩ := resolveFrom_resolves (s := ⟨r.known, ∅, [], [], []⟩)
    (readFrom_findings files r.root) (chainLimit files) [] (fun _ => by simp) (.start name)
    (by simp [chainLimit]; omega)
  have heq := hknown.symm.trans (hresolves.known_eq h)
  exact congrArg (Resolver.mk r.root) heq

/-- **Memory over changing files.** Whatever calls a resolver gets, and however the files change
between them, all calls end, in the memory that is the resolver's: no look-up is going on then. What
it knows, it knows after any further calls. A call fails only where the chain of its class meets one
whose source the system does not answer for; all other calls have been answered with what is known
about the class. Of each class the source was loaded once at most, namely if the class is known and
can have a source, save in calls that failed, each of which may have loaded it once more. -/
theorem serve_remembers (root : Path) (calls : List (FileTree × String)) :
    let r := (new root).serve calls
    ∃ s : Memory,
      (∀ os s', Serves root .start calls os s' ↔ os = r.1 ∧ s' = s) ∧
      s.known = r.2.1.known ∧ s.log = r.2.2 ∧ s.active = ∅ ∧
      (∀ more n t, r.2.1.known.get? n = some t →
        ((new root).serve (calls ++ more)).2.1.known.get? n = some t) ∧
      List.Forall₂ (Settles root r.2.1.known) calls r.1 ∧
      (s.loads.map Prod.fst).Nodup ∧
      (∀ n p, (n, p) ∈ s.loads ↔ sourcePath? root n = some p ∧ n ∈ s.known.keys) ∧
      ∀ n, (s.broken.map Prod.fst).count n ≤ r.1.countP fun o => !o.isOk := by
  intro r
  obtain ⟨s, hserves, hknown, hlog⟩ := serve_serves (s := .start) (new root) rfl rfl calls
  have hactive : s.active = ∅ := hserves.grows.active_eq
  have htidy : s.Tidy root := hserves.tidy Memory.tidy_start
  refine ⟨s, fun os s' => ⟨hserves.unique, ?_⟩, hknown, hlog, hactive, fun more n t hn => ?_,
    hknown ▸ hserves.settles rfl, htidy.nodup, fun n p => ?_, fun n => ?_⟩
  · rintro ⟨rfl, rfl⟩
    exact hserves
  · obtain ⟨s', hmore, hknown', -⟩ := serve_serves r.2.1 hknown hactive more
    rw [serve_append, ← hknown']
    exact hmore.grows.keeps (hknown ▸ hn)
  · simp [htidy.mem_loads_iff, hactive]
  · simpa [Memory.start] using hserves.count_broken_le Memory.tidy_start n

/-- A class leads to one whose name is too long, and then its source is put right. The call that
failed is answered the second time. -/
theorem serve_answers_differently :
    let root : Path := ⟨.relative, []⟩
    let before : FileTree :=
      ⟨[], OrderedMap.ofList [(["app"], .directory), (["app", "A.php"], delegatingNode)]⟩
    let after := before.set ["app", "A.php"]
      (.file (Text.Utf8.encode "<?php class A \x7b\x7d".toList))
    ∃ e, ((new root).serve [(before, "\\App\\A"), (after, "\\App\\A")]).1 =
      [.error e, .ok none] := by
  intro root before after
  have happ : before.place (root.child Settings.appDirectory) = .ok ["app"] := by decide +kernel
  have hplace : sourcePlace? before root (bare "\\App\\A") = some ["app", "A.php"] := by
    decide +kernel
  have hblocked := blocked_of_delegatingNode hplace rfl (refused_longName happ rfl)
  obtain ⟨e, he⟩ := exists_chain_error_iff.mpr hblocked
  have hfirst := (sound_new before root).resolve_iff.mpr he
  have hsecond : ((new root).resolve after "\\App\\A").1 = .ok none := by decide +kernel
  refine ⟨e, ?_⟩
  rw [fst_serve_cons, fst_serve_cons, hfirst, resolve_eq_of_error hfirst, hsecond]
  rfl

end Resolver

end EloquentEntity.Casts

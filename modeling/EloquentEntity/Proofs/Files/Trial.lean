import EloquentEntity.Proofs.Files.Writing
import Mathlib.Algebra.GroupWithZero.Nat

/-!
A store on trial, compared with one that works for good.

Calls that all succeed for good succeed on trial with the same sizes, and leave the files as they
are. The texts that are kept aside then stand by path where the files hold them by place: the two
agree at a path unless another path that leads to the same place was written later.
-/

namespace EloquentEntity

open FileTree Procedure

/-- What stands somewhere stays there, but at the places `rs`; new things may come. -/
structure FileTree.Kept (t t' : FileTree) (rs : List (List String)) : Prop where
  wellFormed : t'.WellFormed
  current : t'.current = t.current
  node : ∀ r n, r ∉ rs → t.node? r = some n → t'.node? r = some n

namespace FileTree.Kept

variable {t t' t'' : FileTree} {rs rs' : List (List String)}

lemma refl (ht : t.WellFormed) : t.Kept t [] := ⟨ht, rfl, fun _ _ _ h => h⟩

lemma trans (h : t.Kept t' rs) (h' : t'.Kept t'' rs') : t.Kept t'' (rs ++ rs') where
  wellFormed := h'.wellFormed
  current := h'.current.trans h.current
  node r n hr hn := by
    rw [List.mem_append, not_or] at hr
    exact h'.node r n hr.2 (h.node r n hr.1 hn)

end FileTree.Kept

namespace Store

inductive Call where
  | makeDirectories (p : Path)
  | write (p : Path) (text : String)
  deriving DecidableEq, Repr

namespace Call

def path : Call → Path
  | makeDirectories p => p
  | write p _ => p

/-- What a call writes, and under which path. -/
def entry? : Call → Option (Path × String)
  | makeDirectories _ => none
  | write p text => some (p, text)

end Call

def writes (calls : List Call) : List (Path × String) := calls.filterMap Call.entry?

/-- Does one call after the other; gives the sizes that were written and the store after them. -/
def makeAll : Store → List Call → Procedure FileError (List Nat × Store)
  | store, [] => return ([], store)
  | store, .makeDirectories p :: calls => do
    store.makeDirectories p
    makeAll store calls
  | store, .write p text :: calls => do
    let (n, store) ← store.write p text
    let (ns, store) ← makeAll store calls
    return (n :: ns, store)

variable {s s' : Session} {store store' : Store} {p : Path} {text : String} {n : Nat}
  {calls : List Call} {sizes : List Nat} {before after : List (Path × String)}

@[simp] lemma writes_nil : writes [] = [] := rfl

@[simp] lemma writes_makeDirectories (p : Path) (calls : List Call) :
    writes (.makeDirectories p :: calls) = writes calls := rfl

@[simp] lemma writes_write (p : Path) (text : String) (calls : List Call) :
    writes (.write p text :: calls) = (p, text) :: writes calls := rfl

lemma makeAll_write_eq_ok
    (h : (makeAll store (.write p text :: calls)).on s = (.ok (sizes, store'), s')) :
    ∃ n store₁ s₁ ns, (store.write p text).on s = (.ok (n, store₁), s₁) ∧
      (makeAll store₁ calls).on s₁ = (.ok (ns, store'), s') ∧ sizes = n :: ns := by
  rw [makeAll] at h
  obtain ⟨⟨n, store₁⟩, s₁, hwrite, hrest⟩ := on_bind_eq_ok h
  obtain ⟨⟨ns, store₂⟩, s₂, hcalls, hpure⟩ := on_bind_eq_ok hrest
  rw [on_pure, Prod.mk.injEq] at hpure
  obtain ⟨hok, rfl⟩ := hpure
  obtain ⟨rfl, rfl⟩ := Prod.mk.inj (Except.ok.inj hok)
  exact ⟨n, store₁, s₁, ns, hwrite, hcalls, rfl⟩

/-! ### For good -/

lemma kept_of_makeDirectories (ht : s.files.WellFormed) (hp : ".." ∉ p.parts)
    (hstore : store.dryRun = false) (h : (store.makeDirectories p).on s = (.ok (), s')) :
    s.files.Kept s'.files [] := by
  have hreach := ht.reaches hp
  rcases on_ensureDirectory_cases ht hreach with
    ⟨hclear, -, t, log, hensure, hmade, -⟩ | ⟨-, e, t, log, hensure, -⟩
  · rw [makeDirectories, hstore, if_neg Bool.false_ne_true, hensure, Prod.mk.injEq] at h
    obtain rfl := h.2
    refine ⟨hmade.wellFormed ht hreach.directory, hmade.current, fun r n _ hn => ?_⟩
    by_cases hz : ∃ zs, zs <+: p.parts ∧ r = s.files.base p ++ zs
    · obtain ⟨zs, hz, rfl⟩ := hz
      rw [hclear zs n hz hn]
      exact hmade.directory zs hz
    · push Not at hz
      exact (hmade.other r hz).trans hn
  · rw [makeDirectories, hstore, if_neg Bool.false_ne_true, hensure] at h
    cases h

lemma kept_of_write (ht : s.files.WellFormed) (hp : ".." ∉ p.parts)
    (hstore : store.dryRun = false) (h : (store.write p text).on s = (.ok (n, store'), s')) :
    n = text.utf8ByteSize ∧ store' = { store with bytesWritten := store.bytesWritten + n } ∧
      p.Fits ∧ s.files.Kept s'.files [s.files.locate p] ∧
      s'.files.node? (s.files.locate p) = some (.file (Text.Utf8.encode text.toList)) := by
  rw [on_write hstore] at h
  rcases on_replaceText_cases ht hp text with
    ⟨hfits, hfree, t, log, hreplace, ht', hcurrent, hnode⟩ | ⟨-, e, t, log, hreplace, -⟩
  · rw [hreplace, Prod.mk.injEq] at h
    obtain ⟨h, rfl⟩ := h
    obtain ⟨rfl, rfl⟩ := Prod.mk.inj (Except.ok.inj h)
    refine ⟨rfl, rfl, hfits.path, ⟨ht', hcurrent, fun r n hr hn => ?_⟩,
      by rw [hnode, if_pos rfl]⟩
    have hr : r ≠ s.files.locate p := by simpa using hr
    rw [hnode, if_neg hr]
    split
    · next hpre => rw [hfree.above r n hpre hr hn]
    · exact hn
  · rw [hreplace] at h
    cases h

/-- Sizes are those of the texts, all are counted, and only written places are taken. -/
lemma kept_of_makeAll (ht : s.files.WellFormed) (hp : ∀ c ∈ calls, ".." ∉ c.path.parts)
    (hstore : store.dryRun = false)
    (h : (makeAll store calls).on s = (.ok (sizes, store'), s')) :
    sizes = (writes calls).map (·.2.utf8ByteSize) ∧
      store' = { store with bytesWritten := store.bytesWritten + sizes.sum } ∧
      s.files.Kept s'.files ((writes calls).map fun w => s.files.locate w.1) := by
  induction calls generalizing s store sizes with
  | nil =>
    rw [makeAll, on_pure, Prod.mk.injEq] at h
    obtain ⟨h, rfl⟩ := h
    obtain ⟨rfl, rfl⟩ := Prod.mk.inj (Except.ok.inj h)
    exact ⟨rfl, rfl, .refl ht⟩
  | cons c calls ih =>
    have hc := hp c List.mem_cons_self
    have hcalls := fun c' h => hp c' (List.mem_cons_of_mem c h)
    cases c with
    | makeDirectories p =>
      rw [makeAll] at h
      obtain ⟨_, s₁, hmake, hrun⟩ := on_bind_eq_ok h
      have hkept := kept_of_makeDirectories ht hc hstore hmake
      obtain ⟨hsizes, hcount, hrest⟩ := ih hkept.wellFormed hcalls hstore hrun
      simp only [locate_congr hkept.current] at hrest
      exact ⟨hsizes, hcount, hkept.trans hrest⟩
    | write p text =>
      obtain ⟨n, store₁, s₁, ns, hwrite, hrun, rfl⟩ := makeAll_write_eq_ok h
      obtain ⟨rfl, hstore₁, -, hkept, -⟩ := kept_of_write ht hc hstore hwrite
      have hdry : store₁.dryRun = false := by rw [hstore₁, hstore]
      obtain ⟨rfl, rfl, hrest⟩ := ih hkept.wellFormed hcalls hdry hrun
      simp only [locate_congr hkept.current] at hrest
      exact ⟨rfl, by simp [hstore₁, Nat.add_assoc], hkept.trans hrest⟩

/-- What a place was given last is what it holds in the end. -/
lemma bytes_of_makeAll (ht : s.files.WellFormed) (hp : ∀ c ∈ calls, ".." ∉ c.path.parts)
    (hstore : store.dryRun = false)
    (h : (makeAll store calls).on s = (.ok (sizes, store'), s'))
    (hwrites : writes calls = before ++ (p, text) :: after)
    (hlast : ∀ w ∈ after, s.files.locate w.1 ≠ s.files.locate p) :
    s'.files.bytes p = .ok (Text.Utf8.encode text.toList) := by
  induction calls generalizing s store sizes before with
  | nil => simp at hwrites
  | cons c calls ih =>
    have hc := hp c List.mem_cons_self
    have hcalls := fun c' h => hp c' (List.mem_cons_of_mem c h)
    cases c with
    | makeDirectories p' =>
      rw [makeAll] at h
      obtain ⟨_, s₁, hmake, hrun⟩ := on_bind_eq_ok h
      have hkept := kept_of_makeDirectories ht hc hstore hmake
      refine ih hkept.wellFormed hcalls hstore hrun hwrites ?_
      simpa only [locate_congr hkept.current] using hlast
    | write p' text' =>
      obtain ⟨n, store₁, s₁, ns, hwrite, hrun, rfl⟩ := makeAll_write_eq_ok h
      obtain ⟨-, hstore₁, hfits, hkept, hnode⟩ := kept_of_write ht hc hstore hwrite
      have hdry : store₁.dryRun = false := by rw [hstore₁, hstore]
      cases before with
      | nil =>
        -- This is the last write to the place: the calls after it leave the file there.
        rw [writes_write, List.nil_append, List.cons.injEq, Prod.mk.injEq] at hwrites
        obtain ⟨⟨rfl, rfl⟩, rfl⟩ := hwrites
        obtain ⟨-, -, hrest⟩ := kept_of_makeAll hkept.wellFormed hcalls hdry hrun
        refine hrest.wellFormed.bytes_plain hc hfits ?_
        rw [locate_congr hrest.current, locate_congr hkept.current]
        refine hrest.node _ _ ?_ hnode
        simpa only [locate_congr hkept.current, List.mem_map, not_exists, not_and] using hlast
      | cons w before =>
        rw [writes_write, List.cons_append, List.cons.injEq] at hwrites
        refine ih hkept.wellFormed hcalls hdry hrun hwrites.2 ?_
        simpa only [locate_congr hkept.current] using hlast

/-! ### On trial -/

lemma on_makeDirectories_trial (hstore : store.dryRun = true) (p : Path) (s : Session) :
    ∃ e, (store.makeDirectories p).on s = (.ok (), { s with log := s.log ++ [e] }) := by
  rw [makeDirectories, if_pos hstore]
  exact ⟨_, rfl⟩

lemma on_write_trial (hstore : store.dryRun = true) (p : Path) (text : String) (s : Session) :
    ∃ e, (store.write p text).on s =
      (.ok (text.utf8ByteSize, { store with pending := store.pending.put p text }),
        { s with log := s.log ++ [e] }) := by
  rw [write, if_pos hstore, Text.Utf8.length_encode]
  exact ⟨_, rfl⟩

/-- Nothing fails, the texts are kept aside one after the other, and nothing else happens. -/
lemma on_makeAll_trial (hstore : store.dryRun = true) (calls : List Call) (s : Session) :
    ∃ log, (makeAll store calls).on s =
      (.ok ((writes calls).map (·.2.utf8ByteSize),
        { store with pending := store.pending.putAll (writes calls) }), { s with log := log }) := by
  induction calls generalizing s store with
  | nil => exact ⟨s.log, rfl⟩
  | cons c calls ih =>
    cases c with
    | makeDirectories p =>
      obtain ⟨e, hmake⟩ := on_makeDirectories_trial hstore p s
      obtain ⟨log, h⟩ := ih hstore { s with log := s.log ++ [e] }
      exact ⟨log, by rw [makeAll, on_bind, hmake]; exact h⟩
    | write p text =>
      obtain ⟨e, hwrite⟩ := on_write_trial hstore p text s
      have hdry : Store.dryRun { store with pending := store.pending.put p text } = true := hstore
      obtain ⟨log, h⟩ := ih hdry { s with log := s.log ++ [e] }
      refine ⟨log, ?_⟩
      rw [makeAll, on_bind, hwrite]
      dsimp only
      rw [on_bind, h]
      rfl

/-- **A trial simulates.** Where calls all succeed for good, the sizes that are given add up to what
is counted. The same calls succeed on trial with the same sizes; nothing is counted, and after each
of them the files are still those there were, so that whatever is looked up or read comes from
them. The paths that were written stand in the order in which each came first, each with the text
that it was given last, and this is the text that is left in its place, unless a path that leads to
the same place is written after it. -/
theorem makeAll_trial (ht : s.files.WellFormed) (hp : ∀ c ∈ calls, ".." ∉ c.path.parts)
    (h : (makeAll (new false) calls).on s = (.ok (sizes, store), s')) :
    store.bytesWritten = sizes.sum ∧
    ∀ u : Session, u.files = s.files → ∃ trial u',
      (makeAll (new true) calls).on u = (.ok (sizes, trial), u') ∧ trial.bytesWritten = 0 ∧
      (∀ done, done <+: calls → ((makeAll (new true) done).on u).2.files = s.files) ∧
      trial.pending.keys = ((writes calls).map Prod.fst).eraseDups ∧
      ∀ before p text after, writes calls = before ++ (p, text) :: after →
        p ∉ after.map Prod.fst →
          trial.pending.get? p = some text ∧
          ((∀ w ∈ after, s.files.locate w.1 ≠ s.files.locate p) →
            s'.files.bytes p = .ok (Text.Utf8.encode text.toList)) := by
  obtain ⟨rfl, rfl, -⟩ := kept_of_makeAll ht hp rfl h
  have hdry : (new true).dryRun = true := rfl
  refine ⟨Nat.zero_add _, fun u hu => ?_⟩
  obtain ⟨log, htrial⟩ := on_makeAll_trial hdry calls u
  refine ⟨_, _, htrial, rfl, fun done _ => ?_, ?_, fun before p text after hwrites hlast => ?_⟩
  · obtain ⟨log, hdone⟩ := on_makeAll_trial hdry done u
    rw [hdone]
    exact hu
  · exact OrderedMap.keys_ofList (writes calls)
  · refine ⟨?_, bytes_of_makeAll ht hp rfl h hwrites⟩
    have hpending := OrderedMap.get?_ofList (writes calls) p
    have hafter : after.reverse.find? (·.1 = p) = none := by
      rw [List.find?_eq_none]
      intro w hw
      simpa using fun he : w.1 = p => hlast (he ▸ List.mem_map_of_mem (List.mem_reverse.mp hw))
    rw [hwrites] at hpending ⊢
    rw [List.reverse_append, List.reverse_cons, List.append_assoc, List.find?_append,
      hafter] at hpending
    exact hpending.trans (by simp)

/-- A path is written three times, once with more slashes than it needs, and a directory is made
where another text goes. -/
theorem makeAll_trial_again :
    let s : Session := ⟨.start ["home"], [], .ofNat 0⟩
    let calls : List Call := [.write (.ofString "a/b") "1", .makeDirectories (.ofString "c"),
      .write (.ofString "c/d") "né", .write (.ofString "a//./b") "22"]
    ∃ store s' trial u', (makeAll (new false) calls).on s = (.ok ([1, 3, 2], store), s') ∧
      store.bytesWritten = 6 ∧
      (makeAll (new true) calls).on s = (.ok ([1, 3, 2], trial), u') ∧ trial.bytesWritten = 0 ∧
      u'.files = s.files ∧ trial.pending.keys = [.ofString "a/b", .ofString "c/d"] ∧
      trial.pending.get? (.ofString "a/b") = some "22" ∧
      s'.files.bytes (.ofString "a/b") = .ok (Text.Utf8.encode "22".toList) := by
  intro s calls
  have ht : s.files.WellFormed := by decide +kernel
  have hp : ∀ c ∈ calls, ".." ∉ c.path.parts := by decide +kernel
  have hsizes : (((makeAll (new false) calls).on s).1.map Prod.fst).toOption = some [1, 3, 2] := by
    decide +kernel
  rcases hrun : (makeAll (new false) calls).on s with ⟨⟨e⟩ | ⟨sizes, store⟩, s'⟩
  · rw [hrun] at hsizes
    cases hsizes
  · rw [hrun] at hsizes
    obtain rfl : sizes = [1, 3, 2] := Option.some.inj hsizes
    obtain ⟨hcount, htrial⟩ := makeAll_trial ht hp hrun
    obtain ⟨trial, u', hon, hzero, hfiles, hkeys, hlast⟩ := htrial s rfl
    have hdone := hfiles calls (List.prefix_refl _)
    rw [hon] at hdone
    have hwrites : writes calls =
        [(.ofString "a/b", "1"), (.ofString "c/d", "né")] ++ [(.ofString "a/b", "22")] := by
      decide +kernel
    obtain ⟨hpending, hbytes⟩ := hlast _ _ _ [] hwrites List.not_mem_nil
    refine ⟨store, s', trial, u', rfl, hcount, hon, hzero, hdone, ?_, hpending, hbytes (by simp)⟩
    rw [hkeys, hwrites]
    decide +kernel

/-- With two slashes in front a path is another one that leads to the same file. Both texts are then
kept aside, but only the second one is left in the file. -/
theorem makeAll_two_spellings :
    let s : Session := ⟨.start ["home"], [], .ofNat 0⟩
    let calls : List Call := [.write (.ofString "/home/x") "1", .write (.ofString "//home/x") "2"]
    ∃ store s' trial u', (makeAll (new false) calls).on s = (.ok ([1, 1], store), s') ∧
      (makeAll (new true) calls).on s = (.ok ([1, 1], trial), u') ∧
      ¬∀ p text, trial.pending.get? p = some text →
        s'.files.bytes p = .ok (Text.Utf8.encode text.toList) := by
  intro s calls
  have hsizes : ∀ dryRun, (((makeAll (new dryRun) calls).on s).1.map Prod.fst).toOption =
      some [1, 1] := by decide +kernel
  have hpending : (((makeAll (new true) calls).on s).1.toOption.map
      fun r => r.2.pending.get? (.ofString "/home/x")) = some (some "1") := by decide +kernel
  have hbytes : (((makeAll (new false) calls).on s).2.files.bytes (.ofString "/home/x")).toOption =
      some (Text.Utf8.encode "2".toList) := by decide +kernel
  have hreal := hsizes false
  have htrial := hsizes true
  rcases hrun : (makeAll (new false) calls).on s with ⟨⟨e⟩ | ⟨sizes, store⟩, s'⟩
  · rw [hrun] at hreal
    cases hreal
  · rcases hrun' : (makeAll (new true) calls).on s with ⟨⟨e⟩ | ⟨sizes', trial⟩, u'⟩
    · rw [hrun'] at htrial
      cases htrial
    · rw [hrun] at hreal hbytes
      rw [hrun'] at htrial hpending
      obtain rfl : sizes = [1, 1] := Option.some.inj hreal
      obtain rfl : sizes' = [1, 1] := Option.some.inj htrial
      refine ⟨store, s', trial, u', rfl, rfl, fun hall => ?_⟩
      rw [hall _ _ (Option.some.inj hpending)] at hbytes
      exact absurd hbytes (by decide +kernel)

end Store

end EloquentEntity

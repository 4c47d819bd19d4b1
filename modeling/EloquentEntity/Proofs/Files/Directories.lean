import EloquentEntity.Proofs.Files.Places

/-!
Making directories. Where nothing else stands on the way and the path is within the limits, there
are directories all along the way then and nothing else has changed. Anywhere else it fails; the
directories above a name that is too long are made all the same.
-/

namespace EloquentEntity.FileTree

variable {t t' : FileTree} {p : Path} {root : PathRoot} {q r base xs : List String} {x : String}
  {n : FileNode}

/-- Directories stand on the way from `q` through `xs`, and all else is as before. -/
structure Made (t t' : FileTree) (q xs : List String) : Prop where
  current : t'.current = t.current
  directory : ∀ zs, zs <+: xs → t'.node? (q ++ zs) = some .directory
  other : ∀ r, (∀ zs, zs <+: xs → r ≠ q ++ zs) → t'.node? r = t.node? r

namespace Made

lemma refl (hd : ∀ zs, zs <+: xs → t.node? (q ++ zs) = some .directory) : t.Made t q xs :=
  ⟨rfl, hd, fun _ _ => rfl⟩

lemma currentPath_eq (h : t.Made t' q xs) : t'.currentPath = t.currentPath := by
  rw [currentPath, currentPath, h.current]

lemma keeps (h : t.Made t' q xs) (hr : t.node? r = some .directory) :
    t'.node? r = some .directory := by
  by_cases hz : ∃ zs, zs <+: xs ∧ r = q ++ zs
  · obtain ⟨zs, hz, rfl⟩ := hz
    exact h.directory zs hz
  · push Not at hz
    rw [h.other r hz, hr]

/-- A node is an old one, or a directory on the way. -/
lemma node_cases (h : t.Made t' q xs) (r : List String) :
    t'.node? r = t.node? r ∨ t'.node? r = some .directory ∧ r <+: q ++ xs := by
  by_cases hz : ∃ zs, zs <+: xs ∧ r = q ++ zs
  · obtain ⟨zs, hz, rfl⟩ := hz
    exact .inr ⟨h.directory zs hz, (List.prefix_append_right_inj q).mpr hz⟩
  · push Not at hz
    exact .inl (h.other r hz)

lemma wellFormed (ht : t.WellFormed) (hq : t.node? q = some .directory) (h : t.Made t' q xs) :
    t'.WellFormed where
  current_plain := h.current ▸ ht.current_plain
  current_directory := by rw [h.current]; exact h.keeps ht.current_directory
  parent_directory := by
    intro r x n hn
    rcases h.node_cases (r ++ [x]) with he | ⟨-, hpre⟩
    · exact h.keeps (ht.parent_directory (he ▸ hn))
    · have hr : r <+: q ++ xs := (List.prefix_append r [x]).trans hpre
      rcases List.prefix_or_prefix_of_prefix hr (List.prefix_append q xs) with hq' | ⟨zs, rfl⟩
      · obtain ⟨s, rfl⟩ := hq'
        exact h.keeps (ht.directory_of_prefix hq)
      · exact h.directory zs ((List.prefix_append_right_inj q).mp hr)

lemma set (h : t.Made t' q xs) :
    t.Made (t'.set (q ++ xs ++ [x]) .directory) q (xs ++ [x]) where
  current := h.current
  directory := by
    intro zs hz
    rw [node?_set (by simp)]
    split
    · rfl
    · next hne =>
      refine h.directory zs ((List.prefix_concat_iff.mp hz).resolve_left fun he => hne ?_)
      rw [he, List.append_assoc]
  other := by
    intro r hr
    rw [node?_set (by simp), if_neg (by simpa using hr _ (List.prefix_refl _))]
    exact h.other r fun zs hz => hr zs (hz.trans (List.prefix_append _ _))

end Made

/-- Some of the directories from `q` through `xs` are made, each where nothing stood and nothing was
in the way; none if the way is not clear, and none if all are there. -/
structure Begun (t t' : FileTree) (q xs : List String) : Prop where
  made : ∃ ys, ys <+: xs ∧ t.Clear q ys ∧ t.Made t' q ys
  eq_of_not_clear : ¬t.Clear q xs → t' = t
  eq_of_directory : t.node? (q ++ xs) = some .directory → t' = t

lemma WellFormed.begun_refl (ht : t.WellFormed) (hq : t.node? q = some .directory)
    (xs : List String) : t.Begun t q xs := by
  have hq' : t.node? (q ++ []) = some .directory := by simpa using hq
  exact ⟨⟨[], List.nil_prefix, ht.clear_of_directory hq', .refl fun zs hz => ht.directories hq' hz⟩,
    fun _ => rfl, fun _ => rfl⟩

namespace Begun

lemma current (h : t.Begun t' q xs) : t'.current = t.current := by
  obtain ⟨_, -, -, hmade⟩ := h.made
  exact hmade.current

lemma wellFormed (h : t.Begun t' q xs) (ht : t.WellFormed) (hq : t.node? q = some .directory) :
    t'.WellFormed := by
  obtain ⟨_, -, -, hmade⟩ := h.made
  exact hmade.wellFormed ht hq

/-- A node is an old one, or a directory on the way where nothing stood. -/
lemma node_cases (h : t.Begun t' q xs) (r : List String) :
    t'.node? r = t.node? r ∨
      r <+: q ++ xs ∧ t.node? r = none ∧ t'.node? r = some .directory := by
  obtain ⟨ys, hpre, hclear, hmade⟩ := h.made
  by_cases hz : ∃ zs, zs <+: ys ∧ r = q ++ zs
  · obtain ⟨zs, hz, rfl⟩ := hz
    rcases hn : t.node? (q ++ zs) with _ | n
    · exact .inr ⟨(List.prefix_append_right_inj q).mpr (hz.trans hpre), rfl,
        hmade.directory zs hz⟩
    · obtain rfl := hclear zs n hz hn
      exact .inl (hmade.directory zs hz)
  · push Not at hz
    exact .inl (hmade.other r hz)

lemma node?_eq (h : t.Begun t' q xs) (hn : t.node? r = some n) : t'.node? r = some n := by
  rcases h.node_cases r with he | ⟨-, hnone, -⟩
  · rw [he, hn]
  · rw [hnone] at hn
    cases hn

end Begun

/-! ### A directory and those above it -/

lemma isDirectory_of_place (h : t.place p = .ok r) :
    t.isDirectory p = .ok (t.node? r == some .directory) := by
  rw [isDirectory, find?, h]
  rfl

lemma settle_of_error {f : FileFault} (h : t.place p = .error f) (f' : FileFault) :
    ∃ e, t.settle p f' = .error e := by
  rw [settle, isDirectory, find?, h]
  cases f <;> exact ⟨_, rfl⟩

lemma makeUpTo_of_none (h : t.place ⟨root, base ++ [x]⟩ = .ok r) (hn : t.node? r = none) :
    t.makeUpTo root (base ++ [x]).reverse = (.ok (), t.set r .directory) := by
  rw [List.reverse_concat, makeUpTo]
  simp [makeOne, h, hn]

lemma makeUpTo_of_some (h : t.place ⟨root, base ++ [x]⟩ = .ok r) (hn : t.node? r = some n) :
    t.makeUpTo root (base ++ [x]).reverse =
      (if n = .directory then .ok () else fault .alreadyThere ⟨root, base ++ [x]⟩, t) := by
  rw [List.reverse_concat, makeUpTo]
  simp only [List.reverse_cons, List.reverse_reverse, makeOne, h, hn, settle,
    isDirectory_of_place h, Option.isSome_some, if_true]
  by_cases hd : n = .directory
  · simp [hd]
  · simp [hd, beq_eq_false_iff_ne.mpr hd]

/-- Where the system refuses for another reason than a missing directory, nothing is made. -/
lemma makeUpTo_of_error {f : FileFault} (h : t.place ⟨root, base ++ [x]⟩ = .error f)
    (hf : f ≠ .notFound) : ∃ e, t.makeUpTo root (base ++ [x]).reverse = (.error e, t) := by
  obtain ⟨e, he⟩ := settle_of_error h f
  refine ⟨e, ?_⟩
  rw [List.reverse_concat, makeUpTo]
  cases f <;> simp_all [makeOne]

lemma makeUpTo_of_missing (h : t.place ⟨root, base ++ [x]⟩ = .error .notFound)
    (hu : t.makeUpTo root base.reverse = (.ok (), t')) (h' : t'.place ⟨root, base ++ [x]⟩ = .ok r)
    (hn : t'.node? r = none) :
    t.makeUpTo root (base ++ [x]).reverse = (.ok (), t'.set r .directory) := by
  rw [List.reverse_concat, makeUpTo]
  simp [makeOne, h, hu, h', hn]

lemma makeUpTo_of_missing_error {f : FileFault}
    (h : t.place ⟨root, base ++ [x]⟩ = .error .notFound)
    (hu : t.makeUpTo root base.reverse = (.ok (), t'))
    (h' : t'.place ⟨root, base ++ [x]⟩ = .error f) (hf : f ≠ .notFound) :
    ∃ e, t.makeUpTo root (base ++ [x]).reverse = (.error e, t') := by
  obtain ⟨e, he⟩ := settle_of_error h' f
  refine ⟨e, ?_⟩
  rw [List.reverse_concat, makeUpTo]
  cases f <;> simp_all [makeOne]

lemma makeUpTo_of_upper_error {e : FileError}
    (h : t.place ⟨root, base ++ [x]⟩ = .error .notFound)
    (hu : t.makeUpTo root base.reverse = (.error e, t')) :
    t.makeUpTo root (base ++ [x]).reverse = (.error e, t') := by
  rw [List.reverse_concat, makeUpTo]
  simp [makeOne, h, hu]

lemma makeUpTo_of_isDirectory (h : t.place ⟨root, base⟩ = .ok q)
    (hq : t.node? q = some .directory) : t.makeUpTo root base.reverse = (.ok (), t) := by
  induction base using List.reverseRecOn with
  | nil => rfl
  | append_singleton base x _ => rw [makeUpTo_of_some h hq, if_pos rfl]

lemma WellFormed.clear_concat (ht : t.WellFormed) (hc : t.Clear q xs)
    (hd : t.node? (q ++ xs) ≠ some .directory) : t.Clear q (xs ++ [x]) := by
  intro zs n hz hn
  rcases List.prefix_concat_iff.mp hz with rfl | hz
  · rw [← List.append_assoc] at hn
    exact absurd (ht.parent_directory hn) hd
  · exact hc zs n hz hn

lemma Clear.of_append {ys : List String} (hc : t.Clear q (xs ++ ys)) : t.Clear q xs :=
  fun zs n hz hn => hc zs n (hz.trans (List.prefix_append _ _)) hn

lemma Begun.concat {t₁ : FileTree} (h : t.Begun t₁ q xs) (ht : t.WellFormed)
    (hd : t.node? (q ++ xs) ≠ some .directory) : t.Begun t₁ q (xs ++ [x]) where
  made := by
    obtain ⟨ys, hpre, hc, hm⟩ := h.made
    exact ⟨ys, hpre.trans (List.prefix_append _ _), hc, hm⟩
  eq_of_not_clear hc := h.eq_of_not_clear fun hc' => hc (ht.clear_concat hc' hd)
  eq_of_directory hdir := by
    rw [← List.append_assoc] at hdir
    exact absurd (ht.parent_directory hdir) hd

lemma Made.begun (h : t.Made t' q xs) (hc : t.Clear q xs)
    (hd : t.node? (q ++ xs) ≠ some .directory) : t.Begun t' q xs where
  made := ⟨xs, List.prefix_refl _, hc, h⟩
  eq_of_not_clear hc' := absurd hc hc'
  eq_of_directory hdir := absurd hdir hd

/-- Along a clear way to a path within the limits directories are made where they are missing. Any
other way comes to an error. -/
def Makes (t : FileTree) (root : PathRoot) (base q xs : List String) : Prop :=
  (t.Clear q xs ∧ Path.Fits ⟨root, base ++ xs⟩ ∧
    ∃ t', t.makeUpTo root (base ++ xs).reverse = (.ok (), t') ∧ t.Made t' q xs) ∨
  (¬(t.Clear q xs ∧ Path.Fits ⟨root, base ++ xs⟩) ∧
    ∃ e t', t.makeUpTo root (base ++ xs).reverse = (.error e, t') ∧ t.Begun t' q xs)

/-- A directory above is missing, so those above are made first. -/
lemma Makes.concat (h : t.Makes root base q xs) (ht : t.WellFormed)
    (hreach : t.Reaches ⟨root, base ++ xs ++ [x]⟩ q (xs ++ [x]))
    (hplace : t.place ⟨root, base ++ xs ++ [x]⟩ = .error .notFound) :
    t.Makes root base q (xs ++ [x]) := by
  have hd := hreach.ne_directory_of_notFound ht hplace
  rw [Makes, ← List.append_assoc base]
  rcases h with ⟨hc, -, t', hu, hmade⟩ | ⟨hnot, e, t', hu, hbegun⟩
  · have hdir := hmade.directory xs (List.prefix_refl _)
    have ht' := hmade.wellFormed ht hreach.directory
    have hreach' := hreach.mono hmade.current fun r => hmade.keeps
    by_cases hp : Path.Fits ⟨root, base ++ xs ++ [x]⟩
    · have hplace' := hreach'.place_eq hp fun zs hz => ht'.directories hdir hz
      have hn : t'.node? (q ++ xs ++ [x]) = none := by
        rcases hmade.node_cases (q ++ xs ++ [x]) with he | ⟨-, hpre⟩
        · rw [he]
          exact Option.eq_none_iff_forall_ne_some.mpr fun n hn => hd (ht.parent_directory hn)
        · exact absurd hpre.length_le (by simp)
      exact .inl ⟨ht.clear_concat hc hd, hp, _, makeUpTo_of_missing hplace hu hplace' hn, hmade.set⟩
    · obtain ⟨f, hplace', hf⟩ := hreach'.exists_place_error hp ht' hdir
      obtain ⟨e, he⟩ := makeUpTo_of_missing_error hplace hu hplace' hf
      exact .inr ⟨fun h => hp h.2, e, t', he, (hmade.begun hc hd).concat ht hd⟩
  · exact .inr ⟨fun h => hnot ⟨h.1.of_append, h.2.of_append⟩,
      e, t', makeUpTo_of_upper_error hplace hu, hbegun.concat ht hd⟩

lemma makes_of_error {f : FileFault} (ht : t.WellFormed)
    (hreach : t.Reaches ⟨root, base ++ xs ++ [x]⟩ q (xs ++ [x]))
    (hplace : t.place ⟨root, base ++ xs ++ [x]⟩ = .error f) (hf : f ≠ .notFound) :
    t.Makes root base q (xs ++ [x]) := by
  obtain ⟨e, he⟩ := makeUpTo_of_error hplace hf
  rw [Makes, ← List.append_assoc base]
  refine .inr ⟨fun ⟨hc, hp⟩ => ?_, e, t, he, ht.begun_refl hreach.directory _⟩
  rcases hreach.place_cases hp ht with ⟨-, h⟩ | ⟨h, -⟩ | ⟨-, h⟩
  · cases hplace.symm.trans h
  · exact hf (Except.error.inj (hplace.symm.trans h))
  · exact h hc.of_append

lemma makes_of_ok (ht : t.WellFormed) (hreach : t.Reaches ⟨root, base ++ xs ++ [x]⟩ q (xs ++ [x]))
    (hplace : t.place ⟨root, base ++ xs ++ [x]⟩ = .ok r) : t.Makes root base q (xs ++ [x]) := by
  have hfits := fits_of_place hplace
  have hd : t.node? (q ++ xs) = some .directory := by
    rcases hreach.place_cases hfits ht with ⟨hd, -⟩ | ⟨h, -⟩ | ⟨h, -⟩
    · exact hd
    all_goals cases hplace.symm.trans h
  obtain rfl : r = q ++ xs ++ [x] :=
    (place_eq_locate hplace).trans (hreach.locate.trans (List.append_assoc ..).symm)
  rw [Makes, ← List.append_assoc base]
  rcases hn : t.node? (q ++ xs ++ [x]) with _ | n
  · have hc : t.Clear q (xs ++ [x]) := by
      intro zs n hz hzn
      rcases List.prefix_concat_iff.mp hz with rfl | hz
      · rw [← List.append_assoc, hn] at hzn
        cases hzn
      · exact ht.clear_of_directory hd zs n hz hzn
    exact .inl ⟨hc, hfits, _, makeUpTo_of_none hplace hn,
      (Made.refl fun zs hz => ht.directories hd hz).set⟩
  · rw [makeUpTo_of_some hplace hn]
    rw [List.append_assoc] at hn
    by_cases hdir : n = .directory
    · subst hdir
      rw [if_pos rfl]
      exact .inl ⟨ht.clear_of_directory hn, hfits, t, rfl, .refl fun zs hz => ht.directories hn hz⟩
    · rw [if_neg hdir]
      exact .inr ⟨fun h => hdir (h.1 _ n (List.prefix_refl _) hn), _, t, rfl,
        ht.begun_refl hreach.directory _⟩

lemma makes (ht : t.WellFormed) (hb : t.place ⟨root, base⟩ = .ok q)
    (hq : t.node? q = some .directory) (hxs : ".." ∉ xs) : t.Makes root base q xs := by
  induction xs using List.reverseRecOn with
  | nil =>
    have hq' : t.node? (q ++ []) = some .directory := by simpa using hq
    rw [Makes, List.append_nil, makeUpTo_of_isDirectory hb hq]
    exact .inl ⟨ht.clear_of_directory hq', fits_of_place hb, t, rfl,
      .refl fun zs hz => ht.directories hq' hz⟩
  | append_singleton xs x ih =>
    have hreach : t.Reaches ⟨root, base ++ xs ++ [x]⟩ q (xs ++ [x]) :=
      ⟨⟨base, List.append_assoc .., hb⟩, hq, hxs⟩
    have hupper := ih fun hm => hxs (List.mem_append_left [x] hm)
    rcases hplace : t.place ⟨root, base ++ xs ++ [x]⟩ with f | r
    · by_cases hf : f = .notFound
      · exact hupper.concat ht hreach (hf ▸ hplace)
      · exact makes_of_error ht hreach hplace hf
    · exact makes_of_ok ht hreach hplace

lemma makeDirectories_of_isDirectory (h : t.place p = .ok q) (hq : t.node? q = some .directory) :
    t.makeDirectories p = (.ok (), t) :=
  makeUpTo_of_isDirectory h hq

lemma makeDirectories_spec (ht : t.WellFormed) (h : t.Reaches p q xs) :
    (t.Clear q xs ∧ p.Fits ∧
      ∃ t', t.makeDirectories p = (.ok (), t') ∧ t.Made t' q xs ∧ t.Begun t' q xs) ∨
    (¬(t.Clear q xs ∧ p.Fits) ∧
      ∃ e t', t.makeDirectories p = (.error e, t') ∧ t.Begun t' q xs) := by
  obtain ⟨base, hp, hb⟩ := h.split
  have hmakes := makes ht hb h.directory h.plain
  rw [Makes, ← hp] at hmakes
  rcases hmakes with ⟨hclear, hfits, t', hmake, hmade⟩ | herror
  · refine .inl ⟨hclear, hfits, t', hmake, hmade, ?_⟩
    by_cases hd : t.node? (q ++ xs) = some .directory
    · rw [← makeDirectories,
        makeDirectories_of_isDirectory (h.place_of_directory hfits ht hd) hd] at hmake
      obtain rfl := congrArg Prod.snd hmake
      exact ht.begun_refl h.directory xs
    · exact hmade.begun hclear hd
  · exact .inr herror

lemma makeDirectories_of_error {f : FileFault} (h : t.place p = .error f) (hf : f ≠ .notFound) :
    ∃ e, t.makeDirectories p = (.error e, t) := by
  obtain ⟨root, parts⟩ := p
  rcases parts.eq_nil_or_concat with rfl | ⟨base, x, rfl⟩
  · rw [place_of_checkPath (Path.fits_nil root).text, walk] at h
    cases h
  · rw [List.concat_eq_append] at *
    exact makeUpTo_of_error h hf

end EloquentEntity.FileTree

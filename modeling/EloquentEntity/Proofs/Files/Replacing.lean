import EloquentEntity.Files.Store
import EloquentEntity.Proofs.Files.Directories
import EloquentEntity.Proofs.Session

/-!
Putting a text in the place of a file.

The temporary file has a name that no file has, beside the file that it is to become. Two things can
still fail once directories were made: the temporary file may not be made, since its path is beyond
the limits, and it may not get the name that it is to have, since a directory has that name or the
name is beyond the limits.
-/

namespace EloquentEntity

namespace FileTree

variable {t t' : FileTree} {p source target : Path} {q r place xs : List String} {x : String}
  {n : FileNode} {bytes : List UInt8}

/-! ### The temporary file -/

/-- A name that is longer than all others is free. -/
lemma node?_of_longestName_lt (h : t.longestName < x.length) : t.node? (q ++ [x]) = none := by
  have hfold (ls : List Nat) : ∀ m ∈ ls, m ≤ ls.foldr max 0 := by
    induction ls with
    | nil => simp
    | cons l ls ih =>
      intro m hm
      rcases List.mem_cons.mp hm with rfl | hm
      · exact Nat.le_max_left ..
      · exact Nat.le_trans (ih m hm) (Nat.le_max_right ..)
  rw [node?_of_ne (by simp), OrderedMap.get?_eq_none_iff]
  intro hm
  have := hfold _ _ (List.mem_map_of_mem (f := fun q => (q.getLast?.getD "").length) hm)
  simp only [List.getLast?_append, List.getLast?_singleton, Option.some_or, Option.getD_some]
    at this
  exact absurd h (by simpa [longestName] using this)

lemma node?_freePlace (t : FileTree) (q : List String) : t.node? (t.freePlace q) = none := by
  rw [freePlace]
  split
  · next h => exact Option.isNone_iff_eq_none.mp h
  · exact node?_of_longestName_lt (by simp)

lemma ne_nil_of_node?_none (h : t.node? q = none) : q ≠ [] := by
  rintro rfl
  simp at h

lemma WellFormed.resolve_eq (ht : t.WellFormed) (p : Path) :
    (t.currentPath.resolve p).isAbsolute ∧ (t.currentPath.resolve p).parts = t.locate p := by
  rw [Path.resolve, Path.join, locate]
  by_cases hp : p.isAbsolute
  · rw [if_pos hp, if_pos hp]
    exact ⟨hp, rfl⟩
  · simp only [hp, currentPath, Bool.false_eq_true, if_false]
    refine ⟨rfl, ?_⟩
    rw [collapse_append, collapse_plain [] ht.current_plain, List.nil_append]

/-- A temporary file with a path within the limits finds its place beside the file. -/
lemma WellFormed.place_temporaryPath (ht : t.WellFormed) (m : Mark)
    (h : t.Reaches p.parent q xs) (hd : t.node? (q ++ xs) = some .directory)
    (hfits : (Store.temporaryPath t.currentPath m p).Fits) :
    t.place (Store.temporaryPath t.currentPath m p) =
      .ok (q ++ xs ++ [Store.temporaryName m p]) := by
  obtain ⟨habs, hparts⟩ := ht.resolve_eq p.parent
  rw [h.locate] at hparts
  have hplain : ".." ∉ q ++ xs := by
    rw [← h.locate, locate]
    exact collapse_notMem _ (by split <;> simp [ht.current_plain])
  have hreach : t.Reaches (Store.temporaryPath t.currentPath m p) []
      (q ++ xs ++ [Store.temporaryName m p]) := by
    refine ⟨⟨[], ?_, ?_⟩, node?_nil t, ?_⟩
    · rw [Store.temporaryPath, Path.child, hparts, List.nil_append]
    · have habs' : (Path.mk (Store.temporaryPath t.currentPath m p).root []).isAbsolute := habs
      rw [place_of_checkPath (Path.fits_nil _).text, if_pos habs', walk]
    · rw [List.mem_append, List.mem_singleton, not_or]
      exact ⟨hplain, (Store.temporaryName_ne m p).symm⟩
  exact hreach.place_eq hfits fun zs hz => ht.directories (q := []) hd hz

/-! ### Where a file can stand -/

/-- A file may be put in a directory where no directory is. -/
lemma filePlace_eq_ok_iff : t.filePlace p = .ok q ↔
    t.place p = .ok q ∧ t.node? q ≠ some .directory ∧ t.node? q.dropLast = some .directory := by
  rw [filePlace]
  rcases hp : t.place p with f | r
  · simp
  dsimp only
  rw [checkPlace]
  by_cases hd : t.node? r = some .directory
  · simp only [hd, if_true, reduceCtorEq, Except.ok.injEq, false_iff]
    rintro ⟨rfl, hn, -⟩
    exact hn hd
  · rw [if_neg hd]
    rcases hc : t.node? r.dropLast with _ | (_ | _ | _) <;>
      simp only [reduceCtorEq, Except.ok.injEq, false_iff]
    case some.directory =>
      constructor
      · rintro rfl
        exact ⟨rfl, hd, hc⟩
      · exact fun h => h.1
    all_goals
      rintro ⟨rfl, -, h⟩
      rw [hc] at h
      cases h

lemma walk_ne_null (here xs : List String) : t.walk here xs ≠ .error .nullCharacter := by
  induction xs generalizing here with
  | nil => simp [walk]
  | cons x xs ih =>
    rw [walk]
    split_ifs
    · exact ih _
    · simp
    · simp
    · split
      · exact ih _
      · simp
      · simp

lemma null_mem_of_checkPath (h : checkPath p = .error .nullCharacter) :
    '\x00' ∈ (toString p).toList := by
  rw [checkPath] at h
  by_cases hnull : (toString p).toList.contains '\x00'
  · exact List.contains_iff_mem.mp hnull
  · rw [if_neg hnull] at h
    split_ifs at h
    cases h

/-- A file can be refused for a null character only if its path has one. -/
lemma null_mem_of_filePlace (h : t.filePlace p = .error .nullCharacter) :
    '\x00' ∈ (toString p).toList := by
  rw [filePlace] at h
  rcases hp : t.place p with f | r
  · rw [hp] at h
    dsimp only at h
    rcases hc : checkPath p with f' | _
    · rw [FileTree.place, hc] at hp
      obtain rfl := Except.error.inj hp
      exact null_mem_of_checkPath (hc.trans (congrArg _ (Except.error.inj h)))
    · rw [place_of_checkPath hc] at hp
      exact absurd (hp.trans h) (walk_ne_null _ _)
  · rw [hp] at h
    dsimp only at h
    rw [checkPlace] at h
    by_cases hd : t.node? r = some .directory
    · simp [hd] at h
    · rcases hc : t.node? r.dropLast with _ | (_ | _ | _) <;> simp [hd, hc] at h

/-- Whether a file can stand somewhere is decided by the directories. -/
lemma filePlace_congr (hc : t'.current = t.current)
    (hd : ∀ r, t'.node? r = some .directory ↔ t.node? r = some .directory) :
    t'.filePlace p = .ok q ↔ t.filePlace p = .ok q := by
  have hplace : t'.place p = .ok q ↔ t.place p = .ok q :=
    ⟨place_mono hc.symm fun r => (hd r).mp, place_mono hc fun r => (hd r).mpr⟩
  rw [filePlace_eq_ok_iff, filePlace_eq_ok_iff, hplace, ne_eq, ne_eq, hd, hd]

lemma rename_of_error {f : FileFault} (source : Path) (hn : t.node? place = some (.file bytes))
    (h : t.filePlace target = .error f) :
    ∃ e, t.rename place source target = .error e ∧ e.fault = f := by
  rw [rename, hn]
  simp only [h]
  exact ⟨_, rfl, rfl⟩

lemma rename_of_ok (source : Path) (hn : t.node? place = some (.file bytes))
    (h : t.filePlace target = .ok r) :
    t.rename place source target =
      .ok { t with nodes := (t.nodes.erase place).put r (.file bytes) } := by
  rw [rename, hn]
  simp only [h]

/-- A file is made in a directory where nothing stands. -/
lemma create_eq_ok (h : t.create p bytes = .ok t') :
    ∃ q, t.place p = .ok q ∧ q ≠ [] ∧ t.node? q = none ∧ t.node? q.dropLast = some .directory ∧
      t' = t.set q (.file bytes) := by
  rw [create] at h
  split at h
  · cases h
  next q hq =>
  obtain ⟨hplace, -, hd⟩ := filePlace_eq_ok_iff.mp hq
  split at h
  · cases h
  next hfree =>
  have hnone := Option.not_isSome_iff_eq_none.mp hfree
  exact ⟨q, hplace, ne_nil_of_node?_none hnone, hnone, hd, (Except.ok.inj h).symm⟩

/-- A new file is no directory, and takes the place of none. -/
lemma node?_set_iff_directory (hnone : t.node? q = none) (r : List String) :
    (t.set q (.file bytes)).node? r = some .directory ↔ t.node? r = some .directory := by
  rw [node?_set (ne_nil_of_node?_none hnone)]
  split
  · next hr =>
    subst hr
    simp [hnone]
  · rfl

/-- A file that was put where it can stand is what its path leads to. -/
lemma bytes_set (h : t.filePlace p = .ok q) : (t.set q (.file bytes)).bytes p = .ok bytes := by
  obtain ⟨hplace, hd, -⟩ := filePlace_eq_ok_iff.mp h
  have hne : q ≠ [] := by
    rintro rfl
    exact hd (node?_nil t)
  have hplace' : (t.set q (.file bytes)).place p = .ok q := by
    refine place_mono (t := t) rfl (fun s hs => ?_) hplace
    have hs' : s ≠ q := by
      rintro rfl
      exact hd hs
    rw [node?_set hne, if_neg hs', hs]
  rw [FileTree.bytes, hplace']
  simp only [node?_set hne, if_pos]

/-! ### Replacing -/

/-- A file stands at the end of the way, directories on it, and all else is as before. -/
structure Placed (t t' : FileTree) (q xs : List String) (x : String) (bytes : List UInt8) :
    Prop where
  current : t'.current = t.current
  file : t'.node? (q ++ xs ++ [x]) = some (.file bytes)
  directory : ∀ zs, zs <+: xs → t'.node? (q ++ zs) = some .directory
  other : ∀ r, r ≠ q ++ xs ++ [x] → (∀ zs, zs <+: xs → r ≠ q ++ zs) → t'.node? r = t.node? r

/-- A file can be put there: neither is something on the way nor a directory at its end. -/
def Vacant (t : FileTree) (q xs : List String) (x : String) : Prop :=
  t.Clear q xs ∧ t.node? (q ++ xs ++ [x]) ≠ some .directory

lemma append_ne_end {zs : List String} (hz : zs <+: xs) : q ++ zs ≠ q ++ xs ++ [x] := by
  intro he
  have hlength := congrArg List.length he
  have := hz.length_le
  simp only [List.length_append, List.length_singleton] at hlength
  omega

/-- Where nothing is on the way, the one hindrance is a directory at the end; then no directory
above it is missing. -/
lemma WellFormed.directory_of_not_vacant (ht : t.WellFormed) (hc : t.Clear q xs)
    (hv : ¬t.Vacant q xs x) :
    t.node? (q ++ xs ++ [x]) = some .directory ∧ t.node? (q ++ xs) = some .directory := by
  have hdir := not_not.mp fun hn => hv ⟨hc, hn⟩
  exact ⟨hdir, ht.parent_directory hdir⟩

lemma Begun.eq_of_not_vacant (h : t.Begun t' q xs) (ht : t.WellFormed) (hv : ¬t.Vacant q xs x) :
    t' = t := by
  by_cases hc : t.Clear q xs
  · exact h.eq_of_directory (ht.directory_of_not_vacant hc hv).2
  · exact h.eq_of_not_clear hc

lemma Made.vacant (h : t.Made t' q xs) (hv : t.Vacant q xs x) : t'.Vacant q xs x := by
  refine ⟨fun zs n hz hn => ?_, ?_⟩
  · exact Option.some.inj (hn.symm.trans (h.directory zs hz))
  · rw [h.other _ fun zs hz => (append_ne_end hz).symm]
    exact hv.2

lemma Made.placed {t'' : FileTree} (h : t.Made t' q xs) (hp : t'.Placed t'' q xs x bytes) :
    t.Placed t'' q xs x bytes where
  current := hp.current.trans h.current
  file := hp.file
  directory := hp.directory
  other := fun r hr hz => (hp.other r hr hz).trans (h.other r hz)

lemma Placed.of_node? (hd : ∀ zs, zs <+: xs → t.node? (q ++ zs) = some .directory)
    (hc : t'.current = t.current)
    (hn : ∀ r, t'.node? r = if r = q ++ xs ++ [x] then some (.file bytes) else t.node? r) :
    t.Placed t' q xs x bytes where
  current := hc
  file := (hn _).trans (if_pos rfl)
  directory := fun zs hz => by rw [hn, if_neg (append_ne_end hz), hd zs hz]
  other := fun r hr _ => by rw [hn, if_neg hr]

end FileTree

namespace Store

open FileTree Procedure

variable {s s' : Session} {p : Path} {q xs : List String} {x : String}

@[simp] lemma on_get {ε : Type} (s : Session) : (get : Procedure ε Session).on s = (.ok s, s) := rfl

/-- Before the directories are made they are only looked for. -/
lemma on_ensureDirectory (p : Path) (s : Session) :
    ∃ r log, (ensureDirectory p).on s =
        (r, { s with files := (s.files.makeDirectories p).2, log := log }) ∧
      (r = .ok () ↔ (s.files.makeDirectories p).1 = .ok ()) := by
  rw [ensureDirectory, on_bind, on_files]
  dsimp only
  rw [on_bind, on_ofExcept]
  by_cases hp : s.files.Refuses p
  · obtain ⟨e, he⟩ := makeDirectories_of_error hp (by simp)
    rw [isDirectory, find?_of_refuses hp, he]
    exact ⟨_, s.log, rfl, by simp⟩
  · rw [isDirectory, find?_of_not_refuses hp]
    dsimp only [Except.map]
    by_cases hd : s.files.at? p == some .directory
    · refine ⟨(s.files.makeDirectories p).1, s.log, ?_, Iff.rfl⟩
      simp [hd]
    · refine ⟨(s.files.makeDirectories p).1,
        s.log ++ [.debug "entitygen.utils" s!"Creating directory {p}"], ?_, Iff.rfl⟩
      simp [hd]

/-- The directories of a path are made, or something stands in the way and only some of them are. -/
lemma on_ensureDirectory_cases (ht : s.files.WellFormed) (h : s.files.Reaches p q xs) :
    (s.files.Clear q xs ∧ p.Fits ∧
      ∃ t log, (ensureDirectory p).on s = (.ok (), { s with files := t, log := log }) ∧
        s.files.Made t q xs ∧ s.files.Begun t q xs) ∨
    (¬(s.files.Clear q xs ∧ p.Fits) ∧
      ∃ e t log, (ensureDirectory p).on s = (.error e, { s with files := t, log := log }) ∧
        s.files.Begun t q xs) := by
  obtain ⟨r, log, hensure, hr⟩ := on_ensureDirectory p s
  rcases makeDirectories_spec ht h with
    ⟨hclear, hfits, t, hmake, hmade, hbegun⟩ | ⟨hnot, e, t, hmake, hbegun⟩
  · rw [hmake] at hensure hr
    obtain rfl := hr.mpr rfl
    exact .inl ⟨hclear, hfits, t, log, hensure, hmade, hbegun⟩
  · rw [hmake] at hensure hr
    rcases r with e' | _
    · exact .inr ⟨hnot, e', t, log, hensure, hbegun⟩
    · cases hr.mp rfl

lemma on_makeTemporary_error {p : Path} {f : FileFault} (h : s.files.place p = .error f)
    (bytes : List UInt8) : ∃ e, (makeTemporary p bytes).on s = (.error e, s) := by
  rw [makeTemporary, on_bind, on_files]
  dsimp only
  rw [on_bind, on_ofExcept, createFree, h]
  exact ⟨_, rfl⟩

/-- The temporary file is the one thing that is new. -/
lemma on_makeTemporary_ok {p : Path} (h : s.files.place p = .ok q) (bytes : List UInt8) :
    (makeTemporary p bytes).on s = (.ok (s.files.freePlace q),
      { s with files := s.files.set (s.files.freePlace q) (.file bytes) }) := by
  rw [makeTemporary, on_bind, on_files]
  dsimp only
  rw [on_bind, on_ofExcept, createFree, h]
  rfl

/-- Once there is a temporary file, what comes of a swap is what comes of giving it its name. -/
lemma on_swapIn_eq (h : s.files.place (temporaryPath s.files.currentPath s.mark p) = .ok q)
    (bytes : List UInt8) :
    let place := s.files.freePlace q
    let t := s.files.set place (.file bytes)
    (swapIn p bytes).on s =
      match t.rename place (temporaryPath s.files.currentPath s.mark p) p with
      | .ok t' => (.ok (), { s with files := t' })
      | .error e =>
        (.error e, { s with files := if e.fault = .nullCharacter then t else t.remove place }) := by
  intro place t
  have htemporary := on_makeTemporary_ok h bytes
  simp only [swapIn, on_bind, on_files, on_get, on_attempt, on_change]
  rw [htemporary]
  dsimp only
  rcases t.rename place (temporaryPath s.files.currentPath s.mark p) p with e | t'
  · by_cases hnull : e.fault = .nullCharacter
    · simp [hnull]
      rfl
    · simp [hnull]
      rfl
  · rfl

/-- What comes of a swap: an error before there is a temporary file, one after that, or the file. -/
lemma on_swapIn_cases (p : Path) (bytes : List UInt8) (s : Session) :
    let temporary := temporaryPath s.files.currentPath s.mark p
    (∃ f e, s.files.place temporary = .error f ∧ (swapIn p bytes).on s = (.error e, s)) ∨
    (∃ q e place, s.files.place temporary = .ok q ∧ (∀ r, s.files.filePlace p ≠ .ok r) ∧
      s.files.node? place = none ∧
      ((swapIn p bytes).on s = (.error e, s) ∨ '\x00' ∈ (toString p).toList ∧
        (swapIn p bytes).on s = (.error e, { s with files := s.files.set place (.file bytes) }))) ∨
    ∃ q r, s.files.place temporary = .ok q ∧ s.files.filePlace p = .ok r ∧
      (swapIn p bytes).on s = (.ok (), { s with files := s.files.set r (.file bytes) }) := by
  intro temporary
  rcases hplace : s.files.place temporary with f | q
  · obtain ⟨e, he⟩ := on_makeTemporary_error hplace bytes
    refine .inl ⟨f, e, rfl, ?_⟩
    simp only [swapIn, on_bind, on_files, on_get]
    rw [he]
  -- There is a temporary file, of which the directories take no notice.
  right
  have hswap := on_swapIn_eq hplace bytes
  have hnone := s.files.node?_freePlace q
  generalize s.files.freePlace q = place at hswap hnone
  have hne := ne_nil_of_node?_none hnone
  dsimp only at hswap
  set t := s.files.set place (.file bytes) with ht
  have hnode : t.node? place = some (.file bytes) := by rw [ht, node?_set hne, if_pos rfl]
  have herase : t.nodes.erase place = s.files.nodes :=
    OrderedMap.erase_put _ (by rwa [← node?_of_ne hne])
  have hcongr (r : List String) : t.filePlace p = .ok r ↔ s.files.filePlace p = .ok r :=
    filePlace_congr rfl fun r => node?_set_iff_directory hnone r
  rcases hfile : t.filePlace p with f | r
  · left
    obtain ⟨e, hrename, hf⟩ := rename_of_error temporary hnode hfile
    rw [hrename] at hswap
    dsimp only at hswap
    refine ⟨q, e, place, rfl, fun r => by simp [← hcongr, hfile], hnone, ?_⟩
    -- It goes again, unless it was a null character that kept it from its place.
    by_cases hnull : f = .nullCharacter
    · rw [if_pos (hf.trans hnull)] at hswap
      exact .inr ⟨null_mem_of_filePlace (hnull ▸ hfile), hswap⟩
    · rw [if_neg fun he => hnull (hf ▸ he), remove, herase] at hswap
      exact .inl hswap
  · right
    rw [rename_of_ok temporary hnode hfile, herase] at hswap
    exact ⟨q, r, rfl, (hcongr r).mp hfile, hswap⟩

/-- In an existing directory a file takes the place of another file or of nothing. It fails where a
directory has its name or a path is beyond the limits, and then nothing changes. -/
lemma on_swapIn (ht : s.files.WellFormed) (h : s.files.Reaches p q (xs ++ [x]))
    (hd : s.files.node? (q ++ xs) = some .directory) (bytes : List UInt8) :
    (Fits s.files.currentPath p ∧ s.files.node? (q ++ xs ++ [x]) ≠ some .directory ∧
      ∃ t, (swapIn p bytes).on s = (.ok (), { s with files := t }) ∧
        t.current = s.files.current ∧
        ∀ r, t.node? r = if r = q ++ xs ++ [x] then some (.file bytes) else s.files.node? r) ∨
    (¬(Fits s.files.currentPath p ∧ s.files.node? (q ++ xs ++ [x]) ≠ some .directory) ∧
      ∃ e t, (swapIn p bytes).on s = (.error e, { s with files := t }) ∧
        ('\x00' ∉ (toString p).toList → t = s.files)) := by
  rcases on_swapIn_cases p bytes s with ⟨f, e, hplace, hrun⟩ |
    ⟨_, e, _, -, hfile, -, hrun⟩ | ⟨r, r', hplace, hfile, hrun⟩
  · refine .inr ⟨fun ⟨hfits, _⟩ => ?_, e, s.files, hrun, fun _ => rfl⟩
    rw [ht.place_temporaryPath s.mark h.parent hd (hfits.temporary s.mark)] at hplace
    cases hplace
  · have hnot : ¬(Fits s.files.currentPath p ∧ s.files.node? (q ++ xs ++ [x]) ≠ some .directory) := by
      rintro ⟨hfits, hdir⟩
      refine hfile (q ++ xs ++ [x]) (filePlace_eq_ok_iff.mpr ?_)
      rw [List.dropLast_concat]
      exact ⟨h.place_eq hfits.path fun zs hz => ht.directories hd hz, hdir, hd⟩
    refine .inr ⟨hnot, e, ?_⟩
    · rcases hrun with hrun | ⟨hnull, hrun⟩
      · exact ⟨s.files, hrun, fun _ => rfl⟩
      · exact ⟨_, hrun, fun hn => absurd hnull hn⟩
  · obtain ⟨hp, hdir, -⟩ := filePlace_eq_ok_iff.mp hfile
    obtain rfl : r' = q ++ xs ++ [x] :=
      (place_eq_locate hp).trans (h.locate.trans (List.append_assoc ..).symm)
    exact .inl ⟨(fits_iff s.mark).mpr ⟨fits_of_place hp, fits_of_place hplace⟩, hdir, _, hrun, rfl,
      fun r => node?_set (by simp) r⟩

/-- A text is put in a vacant place by a path within the limits. Anywhere else it fails; directories
above the place may then be new, but only if the place is vacant, and are there if it is and their
own path is within the limits. -/
lemma on_replaceText (ht : s.files.WellFormed) (h : s.files.Reaches p q (xs ++ [x]))
    (text : String) :
    (Fits s.files.currentPath p ∧ s.files.Vacant q xs x ∧ ∃ t log, (replaceText p text).on s =
        (.ok (Text.Utf8.encode text.toList).length, { s with files := t, log := log }) ∧
      s.files.Placed t q xs x (Text.Utf8.encode text.toList)) ∨
    (¬(Fits s.files.currentPath p ∧ s.files.Vacant q xs x) ∧ ∃ e t log,
      (replaceText p text).on s = (.error e, { s with files := t, log := log }) ∧
      ('\x00' ∉ (toString p).toList →
        s.files.Begun t q xs ∧
          (s.files.Clear q xs → p.parent.Fits → t.node? (q ++ xs) = some .directory))) := by
  rcases on_ensureDirectory_cases ht h.parent with
    ⟨hclear, hfits, t, log, hensure, hmade, hbegun⟩ | ⟨hnot, e, t, log, hensure, hbegun⟩
  · have hend : t.node? (q ++ xs ++ [x]) = s.files.node? (q ++ xs ++ [x]) :=
      hmade.other _ fun zs hz => (append_ne_end hz).symm
    have hswap := on_swapIn (s := { s with files := t, log := log })
      (hmade.wellFormed ht h.directory) (h.mono hmade.current fun r => hmade.keeps)
      (hmade.directory xs (List.prefix_refl _)) (Text.Utf8.encode text.toList)
    simp only [hmade.currentPath_eq, hend] at hswap
    rcases hswap with ⟨hfits, hdir, t', hswap, hcurrent', hnode⟩ | ⟨hnot, e, t', hswap, hkept⟩
    · exact .inl ⟨hfits, ⟨hclear, hdir⟩, t', _,
        by simp only [replaceText, on_bind, hensure, hswap, on_note, on_pure]; rfl,
        hmade.placed (.of_node? hmade.directory hcurrent' hnode)⟩
    · refine .inr ⟨fun ⟨hfits, hv⟩ => hnot ⟨hfits, hv.2⟩, e, t', log,
        by simp only [replaceText, on_bind, hensure, hswap], fun hnull => ?_⟩
      -- The swap has left all as it was; what has been made are the directories.
      obtain rfl := hkept hnull
      exact ⟨hbegun, fun _ _ => hmade.directory xs (List.prefix_refl _)⟩
  · exact .inr ⟨fun ⟨hfits, hv⟩ => hnot ⟨hv.1, hfits.path.parent⟩, e, t, log,
      by simp only [replaceText, on_bind, hensure],
      fun _ => ⟨hbegun, fun hclear hfits => absurd ⟨hclear, hfits⟩ hnot⟩⟩

/-! ### What a file then holds -/

/-- What was put in the place of a file is what the file holds. -/
lemma bytes_of_swapIn {bytes : List UInt8} {a : Unit} (h : (swapIn p bytes).on s = (.ok a, s')) :
    s'.files.bytes p = .ok bytes := by
  rcases on_swapIn_cases p bytes s with ⟨_, _, -, hrun⟩ |
    ⟨_, _, _, -, -, -, hrun | ⟨-, hrun⟩⟩ | ⟨_, r, -, hfile, hrun⟩
  case inr.inr =>
    obtain rfl := (Prod.mk.inj (hrun.symm.trans h)).2
    exact bytes_set hfile
  all_goals
    rw [hrun] at h
    cases h

/-- A text that was written is what its file holds. -/
lemma bytes_of_replaceText {text : String} {n : Nat} (h : (replaceText p text).on s = (.ok n, s')) :
    n = (Text.Utf8.encode text.toList).length ∧
      s'.files.bytes p = .ok (Text.Utf8.encode text.toList) := by
  obtain ⟨_, s₁, -, h⟩ := on_bind_eq_ok h
  obtain ⟨_, s₂, hswap, h⟩ := on_bind_eq_ok h
  have hbytes := bytes_of_swapIn hswap
  rw [on_bind, on_note] at h
  cases h
  exact ⟨rfl, hbytes⟩

end Store

end EloquentEntity

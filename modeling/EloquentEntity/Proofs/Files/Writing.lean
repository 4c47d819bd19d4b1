import EloquentEntity.Proofs.Files.Placed
import Mathlib.Data.List.Infix

/-!
A write of a store, all or nothing.

Where no file stands above a place and no directory at it, the place holds the text after a write,
below directories, and all else is as it was. Anywhere else a write fails, and nothing has changed.
The limits of the system make an exception: a name that is too long is found out when the
directories above it have been made, and there they stay.
-/

namespace EloquentEntity

/-- A text takes as many bytes as its encoding has. -/
lemma Text.Utf8.length_encode (text : String) :
    (encode text.toList).length = text.utf8ByteSize := by
  have h : (encode text.toList).toByteArray = text.toByteArray := String.utf8Encode_toList
  rw [← List.size_toByteArray, h]
  rfl

namespace FileTree

variable {t t' : FileTree} {p : Path} {q r xs : List String} {x : String} {bytes : List UInt8}

/-! ### Where a path leads -/

def base (t : FileTree) (p : Path) : List String := if p.isAbsolute then [] else t.current

lemma WellFormed.node?_base (ht : t.WellFormed) (p : Path) :
    t.node? (t.base p) = some .directory := by
  rw [base]
  split
  · exact node?_nil t
  · exact ht.current_directory

/-- A path of plain names goes through its names from there. -/
lemma WellFormed.reaches (ht : t.WellFormed) (hp : ".." ∉ p.parts) :
    t.Reaches p (t.base p) p.parts :=
  ⟨⟨[], rfl, place_of_checkPath (Path.fits_nil p.root).text⟩, ht.node?_base p, hp⟩

lemma locate_plain (t : FileTree) (hp : ".." ∉ p.parts) : t.locate p = t.base p ++ p.parts :=
  collapse_plain _ hp

lemma bytes_of_at? (h : t.at? p = some (.file bytes)) : t.bytes p = .ok bytes := by
  rw [at?] at h
  rw [FileTree.bytes]
  rcases hp : t.place p with f | r
  · simp [hp] at h
  · rw [hp] at h
    simp [h]

/-- A file is read by any path of plain names that leads to it. -/
lemma WellFormed.bytes_plain (ht : t.WellFormed) (hp : ".." ∉ p.parts) (hfits : p.Fits)
    (h : t.node? (t.locate p) = some (.file bytes)) : t.bytes p = .ok bytes := by
  rw [locate_plain t hp] at h
  exact bytes_of_at? ((ht.at?_eq (ht.reaches hp) hfits).trans h)

lemma locate_congr (h : t'.current = t.current) (p : Path) : t'.locate p = t.locate p := by
  rw [locate, locate, h]

/-! ### Where a file can be put -/

/-- No directory stands there, and above it nothing else. -/
structure Free (t : FileTree) (r : List String) : Prop where
  noDirectory : t.node? r ≠ some .directory
  above : ∀ a n, a <+: r → a ≠ r → t.node? a = some n → n = .directory

lemma vacant_iff_free (ht : t.WellFormed) (hq : t.node? q = some .directory) :
    t.Vacant q xs x ↔ t.Free (q ++ xs ++ [x]) := by
  constructor
  · rintro ⟨hclear, hdirectory⟩
    refine ⟨hdirectory, fun a n ha hne hn => ?_⟩
    have ha := (List.prefix_concat_iff.mp ha).resolve_left hne
    rcases List.prefix_or_prefix_of_prefix ha (List.prefix_append q xs) with ⟨s, rfl⟩ | ⟨zs, rfl⟩
    · rw [ht.directory_of_prefix hq] at hn
      exact (Option.some.inj hn).symm
    · exact hclear zs n ((List.prefix_append_right_inj q).mp ha) hn
  · intro hfree
    refine ⟨fun zs n hz hn => ?_, hfree.noDirectory⟩
    refine hfree.above _ n ?_ (append_ne_end hz) hn
    exact ((List.prefix_append_right_inj q).mpr hz).trans (List.prefix_append _ _)

/-- A file can be put below a place that is not there, if only directories stand above that. -/
lemma WellFormed.free_below (ht : t.WellFormed) (hr : t.node? r = none)
    (habove : ∀ a ∈ r.inits, t.node? a = some .directory ∨ t.node? a = none) :
    t.Free (r ++ [x]) := by
  refine ⟨fun hn => ?_, fun a n ha hne hn => ?_⟩
  · cases (ht.parent_directory hn).symm.trans hr
  · have ha := (List.prefix_concat_iff.mp ha).resolve_left hne
    rcases habove a ((List.mem_inits a _).mpr ha) with h | h
    · exact Option.some.inj (hn.symm.trans h)
    · cases hn.symm.trans h

/-- What stands anywhere after a file was put in its place. -/
lemma Placed.node?_eq (h : t.Placed t' q xs x bytes) (hv : t.Vacant q xs x) (ht : t.WellFormed)
    (hq : t.node? q = some .directory) (r : List String) :
    t'.node? r = if r = q ++ xs ++ [x] then some (.file bytes)
      else if r <+: q ++ xs ++ [x] then some .directory else t.node? r := by
  split
  · next hr => rw [hr, h.file]
  · next hr =>
    split
    · next hpre =>
      have hpre := (List.prefix_concat_iff.mp hpre).resolve_left hr
      rcases List.prefix_or_prefix_of_prefix hpre (List.prefix_append q xs) with
        ⟨s, rfl⟩ | ⟨zs, rfl⟩
      · exact h.keeps hv (ht.directory_of_prefix hq)
      · exact h.directory zs ((List.prefix_append_right_inj q).mp hpre)
    · next hpre =>
      refine h.other r hr fun zs hz he => hpre ?_
      rw [he, List.append_assoc]
      exact (List.prefix_append_right_inj q).mpr (hz.trans (List.prefix_append _ _))

end FileTree

namespace Store

open FileTree Procedure

variable {s : Session} {store : Store} {p : Path}

/-- The store that there is after a write: one that fails leaves the store as it is. -/
def after (store : Store) : Except FileError (Nat × Store) → Store
  | .ok (_, store) => store
  | .error _ => store

/-- For good, a text is put in its place and its size is counted. -/
lemma on_write (hstore : store.dryRun = false) (p : Path) (text : String) (s : Session) :
    (store.write p text).on s = match (replaceText p text).on s with
      | (.ok n, s') => (.ok (n, { store with bytesWritten := store.bytesWritten + n }), s')
      | (.error e, s') => (.error e, s') := by
  simp only [write, hstore, Bool.false_eq_true, if_false, on_bind, on_pure]
  rcases (replaceText p text).on s with ⟨_ | _, _⟩ <;> rfl

/-- A path that leads to the top or to the current directory names no file. -/
lemma on_replaceText_nil (ht : s.files.WellFormed) (hp : p.parts = []) (text : String) :
    ∃ e log, (replaceText p text).on s = (.error e, { s with log := log }) := by
  have hreach : s.files.Reaches p (s.files.base p) [] := hp ▸ ht.reaches (by simp [hp])
  have hparent : p.parent = p := by
    obtain ⟨root, parts⟩ := p
    subst hp
    rfl
  have hplace : s.files.place p = .ok (s.files.base p) := hreach.place_nil
  have hbase := ht.node?_base p
  obtain ⟨r, log, hensure, hr⟩ := on_ensureDirectory p.parent s
  rw [hparent, makeDirectories_of_isDirectory hplace hbase] at hensure hr
  obtain rfl := hr.mpr rfl
  rcases on_swapIn_cases p (Text.Utf8.encode text.toList) { s with log := log } with
    ⟨_, e, -, hswap⟩ | ⟨_, e, _, -, -, -, hswap | ⟨hnull, -⟩⟩ | ⟨_, r, -, hfile, -⟩
  · exact ⟨e, log, by simp only [replaceText, on_bind, hparent, hensure, hswap]⟩
  · exact ⟨e, log, by simp only [replaceText, on_bind, hparent, hensure, hswap]⟩
  · rw [Path.null_mem_toString_iff, hp] at hnull
    simp at hnull
  · obtain ⟨hplace', hdir, -⟩ := filePlace_eq_ok_iff.mp hfile
    obtain rfl := Except.ok.inj (hplace'.symm.trans hplace)
    exact absurd hbase hdir

lemma locate_parent (t : FileTree) (hp : ".." ∉ p.parts) :
    t.locate p.parent = t.base p ++ p.parts.dropLast := by
  rw [locate_plain]
  · rfl
  · exact fun hm => hp ((List.dropLast_sublist _).mem hm)

/-- What is left of a write that failed: some of the directories above the place, where they were
missing. None of them is made where something stands in the way, and all of them where they can be.
-/
structure Remains (t t' : FileTree) (p : Path) : Prop where
  current : t'.current = t.current
  node : ∀ r, t'.node? r = t.node? r ∨
    r <+: t.locate p ∧ r ≠ t.locate p ∧ t.node? r = none ∧ t'.node? r = some .directory
  eq_of_directory : t.node? (t.locate p.parent) = some .directory → t' = t
  eq_of_not_free : ¬t.Free (t.locate p) → t' = t
  directory : t.Free (t.locate p) → p.parent.Fits →
    t'.node? (t.locate p.parent) = some .directory

/-- A text is put in its place, or only directories are made, as the tree and the limits decide. -/
lemma on_replaceText_cases (ht : s.files.WellFormed) (hp : ".." ∉ p.parts) (text : String) :
    (Fits s.files.currentPath p ∧ s.files.Free (s.files.locate p) ∧
      ∃ t log, (replaceText p text).on s =
        (.ok text.utf8ByteSize, { s with files := t, log := log }) ∧
      t.WellFormed ∧ t.current = s.files.current ∧
      ∀ r, t.node? r =
        if r = s.files.locate p then some (.file (Text.Utf8.encode text.toList))
        else if r <+: s.files.locate p then some .directory else s.files.node? r) ∨
    (¬(Fits s.files.currentPath p ∧ s.files.Free (s.files.locate p)) ∧
      ∃ e t log, (replaceText p text).on s = (.error e, { s with files := t, log := log }) ∧
        ('\x00' ∉ (toString p).toList → Remains s.files t p)) := by
  have hbase := ht.node?_base p
  have hparent := locate_parent s.files hp
  rcases p.parts.eq_nil_or_concat with hnil | ⟨xs, x, hparts⟩
  · -- A path without names leads to a directory.
    have hfree : ¬s.files.Free (s.files.locate p) := by
      rw [locate_plain _ hp, hnil, List.append_nil]
      exact fun hfree => hfree.noDirectory hbase
    obtain ⟨e, log, hrun⟩ := on_replaceText_nil ht hnil text
    exact .inr ⟨fun h => hfree h.2, e, s.files, log, hrun,
      fun _ => ⟨rfl, fun _ => .inl rfl, fun _ => rfl, fun _ => rfl, fun h => absurd h hfree⟩⟩
  · rw [List.concat_eq_append] at hparts
    have hreach := ht.reaches hp
    have hlocate := locate_plain s.files hp
    rw [hparts] at hreach
    rw [hparts, ← List.append_assoc] at hlocate
    rw [hparts, List.dropLast_concat] at hparent
    have hspec := on_replaceText ht hreach text
    rw [Text.Utf8.length_encode, vacant_iff_free ht hbase, ← hlocate] at hspec
    rcases hspec with ⟨hfits, hfree, t, log, hrun, hplaced⟩ | ⟨hnot, e, t, log, hrun, hkept⟩
    · -- The text is in its place.
      have hv := (vacant_iff_free ht hbase).mpr (hlocate ▸ hfree)
      refine .inl ⟨hfits, hfree, t, log, hrun, hplaced.wellFormed hv ht hbase, hplaced.current, ?_⟩
      rw [hlocate]
      exact hplaced.node?_eq hv ht hbase
    · -- Of a writing that failed there are directories at most.
      refine .inr ⟨hnot, e, t, log, hrun, fun hnull => ?_⟩
      obtain ⟨hbegun, hmade⟩ := hkept hnull
      refine ⟨hbegun.current, fun r => ?_, fun hd => hbegun.eq_of_directory (hparent ▸ hd),
        fun hfree => hbegun.eq_of_not_vacant ht (x := x) fun hv => hfree ?_, fun hfree hfits => ?_⟩
      rotate_left
      · rw [hlocate]
        exact (vacant_iff_free ht hbase).mp hv
      · rw [hparent]
        exact hmade ((vacant_iff_free ht hbase).mpr (hlocate ▸ hfree)).1 hfits
      rcases hbegun.node_cases r with he | ⟨hpre, hnone, hdir⟩
      · exact .inl he
      · refine .inr ⟨?_, ?_, hnone, hdir⟩
        · rw [hlocate]
          exact hpre.trans (List.prefix_append _ _)
        · rw [hlocate]
          rintro rfl
          exact absurd hpre.length_le (by simp)

/-- **A write is atomic, within the limits of the system.** Where the path and that of the temporary
file are within the limits, no file stands above the place and no directory at it, a write gives the
size of the text in UTF-8 and has counted it; the path leads to just these bytes, directories stand
above them, and all other places are as before, so that no temporary file remains. Anywhere else it
fails, and the store has not changed. Unless the path has a null character the tree has not changed
either, but for directories above the place that were missing. They are new only where the place is
free and one of the two paths is beyond the limits; and then they all are, if their own path is
not. -/
theorem write_atomic (ht : s.files.WellFormed) (hp : ".." ∉ p.parts) (hstore : store.dryRun = false)
    (text : String) :
    let bytes := Text.Utf8.encode text.toList
    let run := (store.write p text).on s
    (Fits s.files.currentPath p ∧ s.files.Free (s.files.locate p) ∧
      run.1.map Prod.fst = .ok bytes.length ∧ bytes.length = text.utf8ByteSize ∧
      store.after run.1 = { store with bytesWritten := store.bytesWritten + bytes.length } ∧
      run.2.files.bytes p = .ok bytes ∧ run.2.files.current = s.files.current ∧
      ∀ r, run.2.files.node? r =
        if r = s.files.locate p then some (.file bytes)
        else if r <+: s.files.locate p then some .directory else s.files.node? r) ∨
    (¬(Fits s.files.currentPath p ∧ s.files.Free (s.files.locate p)) ∧
      (∃ e, run.1 = .error e) ∧ store.after run.1 = store ∧
      ('\x00' ∉ (toString p).toList → Remains s.files run.2.files p)) := by
  intro bytes run
  have hrun : run = _ := on_write hstore p text s
  rcases on_replaceText_cases ht hp text with
    ⟨hfits, hfree, t, log, hreplace, ht', hcurrent, hnode⟩ | ⟨hnot, e, t, log, hreplace, hkept⟩
  · rw [hreplace] at hrun
    refine .inl ⟨hfits, hfree, ?_, Text.Utf8.length_encode text, ?_, ?_, ?_, ?_⟩
    · rw [hrun, Text.Utf8.length_encode]
      rfl
    · rw [hrun, Text.Utf8.length_encode]
      rfl
    · rw [hrun]
      refine ht'.bytes_plain hp hfits.path ?_
      rw [locate_congr hcurrent, hnode, if_pos rfl]
    · rw [hrun]
      exact hcurrent
    · rw [hrun]
      exact hnode
  · rw [hreplace] at hrun
    exact .inr ⟨hnot, ⟨e, by rw [hrun]⟩, by rw [hrun]; rfl, by rw [hrun]; exact hkept⟩

/-- Two missing directories are made on the way, and the text takes one byte more than it has
letters. -/
theorem write_atomic_below_home :
    let s : Session := ⟨.start ["home"], [], .ofNat 0⟩
    let p : Path := ⟨.relative, ["a", "b", "c.txt"]⟩
    ∃ store s', ((new false).write p "né").on s = (.ok (3, store), s') ∧
      store = { new false with bytesWritten := 3 } ∧ s'.files.bytes p = .ok [110, 195, 169] ∧
      s'.files.node? ["home", "a", "b"] = some .directory ∧
      s'.files.node? ["home", "a", ".c.aaaaaaaa.tmp"] = none := by
  intro s p
  have ht : s.files.WellFormed := by decide +kernel
  have hp : ".." ∉ p.parts := by decide +kernel
  have hbytes : Text.Utf8.encode "né".toList = [110, 195, 169] := by decide +kernel
  have hplace : s.files.locate p = ["home", "a", "b", "c.txt"] := by decide +kernel
  have hok : (((new false).write p "né").on s).1.isOk = true := by decide +kernel
  have hstore : (new false).dryRun = false := rfl
  have hwrite := write_atomic ht hp hstore "né"
  rcases hrun : ((new false).write p "né").on s with ⟨⟨e⟩ | ⟨n, store⟩, s'⟩
  · rw [hrun] at hok
    cases hok
  · rw [hrun, hbytes, hplace] at hwrite
    rcases hwrite with ⟨-, -, hsize, -, hstore, hfile, -, hnode⟩ | ⟨-, ⟨e, he⟩, -⟩
    · obtain rfl : n = 3 := Except.ok.inj hsize
      refine ⟨store, s', rfl, hstore, hfile, ?_, ?_⟩
      · rw [hnode]
        decide +kernel
      · rw [hnode]
        decide +kernel
    · cases he

/-- The name of the file is short enough, but not that of the temporary file: the write fails when
the directory above has been made. -/
theorem write_leaves_directory :
    let s : Session := ⟨.start ["home"], [], .ofNat 0⟩
    let p : Path := ⟨.relative, ["a", String.ofList (List.replicate 245 'b') ++ ".php"]⟩
    s.files.WellFormed ∧ s.files.Free (s.files.locate p) ∧ p.Fits ∧ ∃ e s',
      ((new false).write p "x").on s = (.error e, s') ∧ s.files.node? ["home", "a"] = none ∧
        s'.files.node? ["home", "a"] = some .directory := by
  intro s p
  let letters := String.ofList (List.replicate 245 'b')
  have ht : s.files.WellFormed := by decide +kernel
  have hletters : letters.toList = List.replicate 245 'b' := String.toList_ofList
  have hnull : ∀ x ∈ p.parts, '\x00' ∉ x.toList := by
    intro x hx
    rcases List.mem_pair.mp hx with rfl | rfl
    · decide +kernel
    · rw [String.toList_append, List.mem_append, hletters, List.mem_replicate]
      decide +kernel
  have hp : ".." ∉ p.parts := by decide +kernel
  have hfits : p.Fits := by
    refine Path.fits_iff.mpr ⟨by decide +kernel, fun x hx => ⟨hnull x hx, ?_⟩⟩
    rcases List.mem_pair.mp hx with rfl | rfl <;> decide +kernel
  have hlong : ¬Fits s.files.currentPath p := by
    have hname : p.fileName = letters ++ "." ++ "php" := by decide +kernel
    exact not_fits_of_fileName hname (by decide +kernel) (by decide +kernel) (by decide +kernel)
  have hparent : s.files.locate p.parent = ["home", "a"] := by decide +kernel
  have hmissing : s.files.node? ["home", "a"] = none := by decide +kernel
  have hfree : s.files.Free (s.files.locate p) := by
    have hsplit : s.files.base p ++ p.parts = ["home", "a"] ++ [letters ++ ".php"] := rfl
    rw [locate_plain s.files hp, hsplit]
    exact ht.free_below hmissing (by decide +kernel)
  have hstore : (new false).dryRun = false := rfl
  have hwrite := write_atomic ht hp hstore "x"
  rcases hrun : ((new false).write p "x").on s with ⟨r, s'⟩
  rw [hrun] at hwrite
  rcases hwrite with ⟨h, -⟩ | ⟨-, ⟨e, rfl⟩, -, hremains⟩
  · exact absurd h hlong
  · have hkept := hremains (by simpa [Path.null_mem_toString_iff] using hnull)
    have hdirectory := hkept.directory hfree (by decide +kernel)
    rw [hparent] at hdirectory
    exact ⟨ht, hfree, hfits, e, s', rfl, hmissing, hdirectory⟩

end Store

end EloquentEntity

import EloquentEntity.Proofs.Files.Replacing

/-!
What a file that was put in its place leaves as it was.

Other files stay, and other paths lead to what they led to before, or to a directory where they led
to nothing. To put the same file there again changes nothing any more.
-/

namespace EloquentEntity.FileTree

variable {t t' t'' : FileTree} {p : Path} {q r xs ys : List String} {x : String} {n : FileNode}
  {bytes bs : List UInt8}

/-- At the end of a path through plain names, within the limits, is what stands at its place, if
anything. -/
lemma WellFormed.at?_eq (ht : t.WellFormed) (h : t.Reaches p q xs) (hfits : p.Fits) :
    t.at? p = t.node? (q ++ xs) := by
  rw [at?]
  rcases hn : t.node? (q ++ xs) with _ | n
  · -- If the path leads anywhere, then to this place.
    rcases hp : t.place p with f | r
    · rfl
    · rw [place_eq_locate hp, h.locate]
      exact hn
  · have hplace : t.place p = .ok (q ++ xs) := by
      rcases xs.eq_nil_or_concat with rfl | ⟨ys, y, rfl⟩
      · simpa using h.place_nil
      · rw [List.concat_eq_append, ← List.append_assoc] at *
        exact h.place_eq hfits fun zs hz => ht.directories (ht.parent_directory hn) hz
    rw [hplace]
    exact hn

/-- A file keeps its bytes while it and all directories stay. -/
lemma bytes_mono (hc : t'.current = t.current)
    (hd : ∀ r, t.node? r = some .directory → t'.node? r = some .directory)
    (hf : ∀ n, t.at? p = some n → n ≠ .directory → t'.at? p = some n)
    (h : t.bytes p = .ok bs) : t'.bytes p = .ok bs := by
  rw [FileTree.bytes] at h ⊢
  rcases hp : t.place p with f | r
  · simp [hp, fault] at h
  · have hp' := place_mono hc hd hp
    rw [at?, at?, hp, hp'] at hf
    rw [hp] at h
    rw [hp']
    rcases hn : t.node? r with _ | (_ | bytes | tables)
    · simp [hn, fault] at h
    · simp [hn, fault] at h
    · simpa [hn, hf _ hn] using h
    · simpa [hn, hf _ hn] using h

/-- A file keeps its bytes while all stays that there was. -/
lemma bytes_of_keeps (hc : t'.current = t.current)
    (hkeeps : ∀ r n, t.node? r = some n → t'.node? r = some n) (h : t.bytes p = .ok bs) :
    t'.bytes p = .ok bs := by
  have hd (r : List String) := hkeeps r .directory
  refine bytes_mono hc hd (fun n hn _ => ?_) h
  rw [at?] at hn
  rw [at?]
  rcases hp : t.place p with f | r
  · simp [hp] at hn
  · rw [hp] at hn
    rw [place_mono hc hd hp]
    exact hkeeps r n hn

lemma isFile_of_bytes (h : t.bytes p = .ok bs) : t.isFile p = .ok true := by
  rw [FileTree.bytes] at h
  rw [isFile_eq_true_iff, at?]
  rcases hp : t.place p with f | r
  · simp [hp, fault] at h
  · rcases hn : t.node? r with _ | (_ | bytes | tables)
    · simp [hp, hn, fault] at h
    · simp [hp, hn, fault] at h
    · simp [hn, FileNode.isFile]
    · simp [hn, FileNode.isFile]

namespace Placed

/-- A node is an old one, the file, or a directory above it that was missing. -/
lemma node_cases (h : t.Placed t' q xs x bytes) (hv : t.Vacant q xs x)
    (hr : r ≠ q ++ xs ++ [x]) :
    t'.node? r = t.node? r ∨
      r <+: q ++ xs ++ [x] ∧ t.node? r = none ∧ t'.node? r = some .directory := by
  by_cases hz : ∃ zs, zs <+: xs ∧ r = q ++ zs
  · obtain ⟨zs, hz, rfl⟩ := hz
    rcases hn : t.node? (q ++ zs) with _ | n
    · refine .inr ⟨?_, rfl, h.directory zs hz⟩
      rw [List.append_assoc]
      exact (List.prefix_append_right_inj q).mpr (hz.trans (List.prefix_append _ _))
    · obtain rfl := hv.1 zs n hz hn
      exact .inl (h.directory zs hz)
  · push Not at hz
    exact .inl (h.other r hr hz)

lemma keeps (h : t.Placed t' q xs x bytes) (hv : t.Vacant q xs x)
    (hr : t.node? r = some .directory) : t'.node? r = some .directory := by
  have hne : r ≠ q ++ xs ++ [x] := by
    rintro rfl
    exact hv.2 hr
  rcases h.node_cases hv hne with he | ⟨-, -, hd⟩
  · rw [he, hr]
  · exact hd

lemma wellFormed (h : t.Placed t' q xs x bytes) (hv : t.Vacant q xs x) (ht : t.WellFormed)
    (hq : t.node? q = some .directory) : t'.WellFormed where
  current_plain := h.current ▸ ht.current_plain
  current_directory := by rw [h.current]; exact h.keeps hv ht.current_directory
  parent_directory := by
    intro r y n hn
    by_cases hr : r <+: q ++ xs
    · rcases List.prefix_or_prefix_of_prefix hr (List.prefix_append q xs) with hq' | ⟨zs, rfl⟩
      · obtain ⟨s, rfl⟩ := hq'
        exact h.keeps hv (ht.directory_of_prefix hq)
      · exact h.directory zs ((List.prefix_append_right_inj q).mp hr)
    · have hne : ¬r ++ [y] <+: q ++ xs ++ [x] := fun hp => hr <| by
        rcases List.prefix_concat_iff.mp hp with he | hp
        · exact (List.append_inj' he rfl).1 ▸ List.prefix_refl _
        · exact (List.prefix_append r [y]).trans hp
      have hend : r ++ [y] ≠ q ++ xs ++ [x] := fun he => hne (he ▸ List.prefix_refl _)
      rcases h.node_cases hv hend with he | ⟨hp, -, -⟩
      · exact h.keeps hv (ht.parent_directory (he ▸ hn))
      · exact absurd hp hne

/-- A path through the names of the way leads to the file. -/
lemma place (h : t.Placed t' q xs x bytes) (hv : t.Vacant q xs x)
    (hp : t.Reaches p q (xs ++ [x])) (hfits : p.Fits) : t'.place p = .ok (q ++ xs ++ [x]) :=
  (hp.mono h.current fun _ => h.keeps hv).place_eq hfits h.directory

/-- Other names lead to what they led to, or to a directory where they led to nothing. -/
lemma at?_cases (h : t.Placed t' q xs x bytes) (hv : t.Vacant q xs x) (ht : t.WellFormed)
    (hp : t.Reaches p q ys) (hne : ys ≠ xs ++ [x]) :
    t'.at? p = t.at? p ∨ t.at? p = none ∧ t'.at? p = some .directory := by
  by_cases hfits : p.Fits
  swap
  · exact .inl ((at?_of_not_fits hfits).trans (at?_of_not_fits hfits).symm)
  have hp' := hp.mono h.current fun _ => h.keeps hv
  have hend : q ++ ys ≠ q ++ xs ++ [x] := by
    rw [List.append_assoc]
    exact fun he => hne (List.append_cancel_left he)
  rw [ht.at?_eq hp hfits, (h.wellFormed hv ht hp.directory).at?_eq hp' hfits]
  rcases h.node_cases hv hend with he | ⟨-, hnone, hd⟩
  · exact .inl he
  · exact .inr ⟨hnone, hd⟩

lemma bytes_eq_ok (h : t.Placed t' q xs x bytes) (hv : t.Vacant q xs x) (ht : t.WellFormed)
    (hp : t.Reaches p q ys) (hne : ys ≠ xs ++ [x]) (hb : t.bytes p = .ok bs) :
    t'.bytes p = .ok bs := by
  refine bytes_mono h.current (fun _ => h.keeps hv) (fun n hn _ => ?_) hb
  rcases h.at?_cases hv ht hp hne with he | ⟨hnone, -⟩
  · rw [he, hn]
  · rw [hnone] at hn
    cases hn

lemma vacant (h : t.Placed t' q xs x bytes) : t'.Vacant q xs x := by
  refine ⟨fun zs n hz hn => ?_, ?_⟩
  · exact Option.some.inj (hn.symm.trans (h.directory zs hz))
  · rw [h.file]
    simp

lemma node?_again (h : t.Placed t' q xs x bytes) (h' : t'.Placed t'' q xs x bytes)
    (r : List String) : t''.node? r = t'.node? r := by
  by_cases hr : r = q ++ xs ++ [x]
  · subst hr
    rw [h'.file, h.file]
  · by_cases hz : ∃ zs, zs <+: xs ∧ r = q ++ zs
    · obtain ⟨zs, hz, rfl⟩ := hz
      rw [h'.directory zs hz, h.directory zs hz]
    · push Not at hz
      exact h'.other r hr hz

end Placed

end EloquentEntity.FileTree

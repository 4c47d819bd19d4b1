import EloquentEntity.Files.Store
import Mathlib.Data.List.TakeWhile

/-!
The limits that the system sets to names and paths, and which paths stay within them.

Whether a temporary file has a path within the limits is a question of the file that it is to
become: all marks take the same number of bytes.
-/

namespace EloquentEntity

namespace FileTree

variable {p : Path}

lemma checkPath_eq_ok_iff : checkPath p = .ok () ↔
    '\x00' ∉ (toString p).toList ∧ (toString p).utf8ByteSize ≤ pathLimit := by
  rw [checkPath]
  split
  · next h => simp only [List.contains_iff_mem.mp h, not_true, false_and, reduceCtorEq]
  · next h =>
    have hnull : '\x00' ∉ (toString p).toList := by simpa using h
    simp [hnull]

end FileTree

namespace Path

open FileTree

variable {p : Path} {root : PathRoot} {xs ys : List String} {x y : String}

/-! ### Texts of paths -/

lemma toString_eq (hxs : xs ≠ []) :
    toString (Path.mk root xs) = rootText root ++ "/".intercalate xs := if_neg (by simp [hxs])

/-- A path has a null character where one of its names has. -/
lemma null_mem_toString_iff :
    '\x00' ∈ (toString p).toList ↔ ∃ x ∈ p.parts, '\x00' ∈ x.toList := by
  obtain ⟨root, xs⟩ := p
  have hroot : '\x00' ∉ (rootText root).toList := by cases root <;> decide +kernel
  have hjoined : '\x00' ∈ ("/".intercalate xs).toList ↔ ∃ x ∈ xs, '\x00' ∈ x.toList := by
    induction xs with
    | nil => simp
    | cons x xs ih =>
      rcases eq_or_ne xs [] with rfl | hxs
      · simp
      · rw [String.intercalate_cons_of_ne_nil hxs, String.toList_append, String.toList_append,
          List.mem_append, List.mem_append, ih]
        simp
  rcases eq_or_ne xs [] with rfl | hxs
  · cases root <;> decide +kernel
  · rw [toString_eq hxs, String.toList_append, List.mem_append, hjoined]
    simp [hroot]

lemma exists_toString_child (p : Path) : ∃ front, ∀ x, toString (p.child x) = front ++ x := by
  obtain ⟨root, xs⟩ := p
  have htext (x : String) : toString (Path.child ⟨root, xs⟩ x) = _ := toString_eq (by simp)
  rcases eq_or_ne xs [] with rfl | hxs
  · exact ⟨rootText root, fun x => by rw [htext, List.nil_append, String.intercalate_singleton]⟩
  · refine ⟨rootText root ++ "/".intercalate xs ++ "/", fun x => ?_⟩
    rw [htext, String.intercalate_append_of_ne_nil hxs (by simp), String.intercalate_singleton]
    simp only [String.append_assoc]

lemma stem_eq {s t : String} (h : p.fileName = s ++ "." ++ t) (hs : s ≠ "") (ht : t ≠ "")
    (hpoint : '.' ∉ t.toList) : p.stem = s := by
  have hname : p.fileName.toList = s.toList ++ '.' :: t.toList := by
    simp [h, String.toList_append]
  have hextension : ((s.toList ++ '.' :: t.toList).reverse.takeWhile (· != '.')).length =
      t.toList.length := by
    have hall : ∀ c ∈ t.toList.reverse, (c != '.') = true := by
      intro c hc
      simpa using fun he : c = '.' => hpoint (he ▸ List.mem_reverse.mp hc)
    rw [List.reverse_append, List.reverse_cons, List.append_assoc,
      List.takeWhile_append_of_pos hall]
    simp
  have hs' : 0 < s.toList.length := List.length_pos_iff.mpr (by simpa using hs)
  have ht' : 0 < t.toList.length := List.length_pos_iff.mpr (by simpa using ht)
  have hlength : s.toList.length + (t.toList.length + 1) - t.toList.length - 1 = s.toList.length := by
    omega
  rw [stem]
  simp only [hname, hextension, List.length_append, List.length_cons, hlength]
  rw [if_neg (by omega), List.take_left', String.ofList_toList]
  rfl

/-! ### Paths within the limits -/

/-- The system takes the path, and each of its names can stand in a directory. -/
structure Fits (p : Path) : Prop where
  text : checkPath p = .ok ()
  names : ∀ x ∈ p.parts, x.utf8ByteSize ≤ nameLimit

lemma fits_iff : p.Fits ↔ (toString p).utf8ByteSize ≤ pathLimit ∧
    ∀ x ∈ p.parts, '\x00' ∉ x.toList ∧ x.utf8ByteSize ≤ nameLimit := by
  have hnull : '\x00' ∉ (toString p).toList ↔ ∀ x ∈ p.parts, '\x00' ∉ x.toList := by
    simp [null_mem_toString_iff]
  constructor
  · intro h
    obtain ⟨htext, hsize⟩ := checkPath_eq_ok_iff.mp h.text
    exact ⟨hsize, fun x hx => ⟨hnull.mp htext x hx, h.names x hx⟩⟩
  · rintro ⟨hsize, hnames⟩
    exact ⟨checkPath_eq_ok_iff.mpr ⟨hnull.mpr fun x hx => (hnames x hx).1, hsize⟩,
      fun x hx => (hnames x hx).2⟩

instance (p : Path) : Decidable p.Fits := decidable_of_iff _ fits_iff.symm

/-- A name shows in a path's limits by its size, and by whether it has a null character. -/
lemma fits_child_congr (hsize : x.utf8ByteSize = y.utf8ByteSize)
    (hnull : '\x00' ∈ x.toList ↔ '\x00' ∈ y.toList) : (p.child x).Fits ↔ (p.child y).Fits := by
  obtain ⟨front, hfront⟩ := exists_toString_child p
  have hnames (z : String) (P : String → Prop) :
      (∀ a ∈ (p.child z).parts, P a) ↔ (∀ a ∈ p.parts, P a) ∧ P z := by
    simp [child, or_imp, forall_and]
  simp only [fits_iff, hfront, hnames, String.utf8ByteSize_append, hsize, hnull]

lemma fits_nil (root : PathRoot) : Fits ⟨root, []⟩ := by
  cases root <;> decide +kernel

/-- The first part of a path is within the limits when the path is. -/
lemma Fits.of_append (h : Fits ⟨root, xs ++ ys⟩) : Fits ⟨root, xs⟩ := by
  rcases eq_or_ne xs [] with rfl | hxs
  · exact fits_nil root
  rcases eq_or_ne ys [] with rfl | hys
  · rwa [List.append_nil] at h
  obtain ⟨hsize, hnames⟩ := fits_iff.mp h
  refine fits_iff.mpr ⟨?_, fun x hx => hnames x (List.mem_append_left ys hx)⟩
  rw [toString_eq (by simp [hxs]), String.intercalate_append_of_ne_nil hxs hys] at hsize
  rw [toString_eq hxs]
  simp only [String.utf8ByteSize_append] at hsize ⊢
  omega

lemma Fits.parent (h : p.Fits) : p.parent.Fits := by
  obtain ⟨root, xs⟩ := p
  rcases xs.eq_nil_or_concat with rfl | ⟨ys, y, rfl⟩
  · exact h
  · rw [List.concat_eq_append] at *
    rw [Path.parent, List.dropLast_concat]
    exact h.of_append

end Path

/-! ### Temporary files -/

lemma Mark.utf8ByteSize_text (m : Mark) : m.text.utf8ByteSize = 8 := by
  have hone : Mark.alphabet.all (·.utf8Size = 1) = true := by decide +kernel
  simp only [List.all_eq_true, decide_eq_true_eq] at hone
  have hsize (cs : List Char) (h : ∀ c ∈ cs, c ∈ Mark.alphabet) :
      (String.ofList cs).utf8ByteSize = cs.length := by
    induction cs with
    | nil => rfl
    | cons c cs ih =>
      rw [String.ofList_cons, String.utf8ByteSize_append, String.utf8ByteSize_singleton,
        hone c (h c List.mem_cons_self), ih fun d hd => h d (List.mem_cons_of_mem c hd),
        List.length_cons, Nat.add_comm]
  rw [Mark.text, hsize _ m.mem_alphabet, m.length_eq]

lemma Mark.null_notMem_text (m : Mark) : '\x00' ∉ m.text.toList := by
  have halphabet : '\x00' ∉ Mark.alphabet := by decide +kernel
  rw [Mark.text, String.toList_ofList]
  exact fun h => halphabet (m.mem_alphabet _ h)

namespace Store

open FileTree

variable {here p : Path} {m m' : Mark}

lemma utf8ByteSize_temporaryName (m : Mark) (p : Path) :
    (temporaryName m p).utf8ByteSize = p.stem.utf8ByteSize + 14 := by
  have hpoint : ".".utf8ByteSize = 1 ∧ ".tmp".utf8ByteSize = 4 := by decide +kernel
  simp only [temporaryName, String.utf8ByteSize_append, m.utf8ByteSize_text, hpoint]
  omega

lemma temporaryName_ne (m : Mark) (p : Path) : temporaryName m p ≠ ".." := by
  intro he
  have hsize := utf8ByteSize_temporaryName m p
  have hdots : "..".utf8ByteSize = 2 := by decide +kernel
  rw [he] at hsize
  omega

/-- A file with the path can be replaced, as far as names and paths go: its own path is within the
limits, and so is that of the temporary file beside it. -/
structure Fits (here p : Path) : Prop where
  path : p.Fits
  temporary : ∀ m, (temporaryPath here m p).Fits

lemma fits_temporaryPath_congr (m m' : Mark) :
    (temporaryPath here m p).Fits ↔ (temporaryPath here m' p).Fits := by
  refine Path.fits_child_congr ?_ ?_
  · rw [utf8ByteSize_temporaryName, utf8ByteSize_temporaryName]
  · simp only [temporaryName, String.toList_append, List.mem_append, m.null_notMem_text,
      m'.null_notMem_text]

lemma fits_iff (m : Mark) : Fits here p ↔ p.Fits ∧ (temporaryPath here m p).Fits :=
  ⟨fun h => ⟨h.path, h.temporary m⟩,
    fun h => ⟨h.1, fun m' => (fits_temporaryPath_congr m m').mp h.2⟩⟩

/-- With the point in front, the mark and the suffix the name of a temporary file is 14 bytes longer
than the stem. -/
lemma not_fits_of_stem (h : nameLimit < p.stem.utf8ByteSize + 14) : ¬Fits here p := by
  intro hfits
  have hname := (hfits.temporary (.ofNat 0)).names (temporaryName (.ofNat 0) p)
    (by simp [temporaryPath, Path.child])
  rw [utf8ByteSize_temporaryName] at hname
  omega

lemma not_fits_of_fileName {stem extension : String} (h : p.fileName = stem ++ "." ++ extension)
    (hextension : extension ≠ "") (hpoint : '.' ∉ extension.toList)
    (hsize : nameLimit < stem.utf8ByteSize + 14) : ¬Fits here p := by
  have hstem : stem ≠ "" := by
    rintro rfl
    exact absurd hsize (by decide)
  refine not_fits_of_stem ?_
  rwa [Path.stem_eq h hstem hextension hpoint]

instance (here p : Path) : Decidable (Fits here p) := decidable_of_iff _ (fits_iff (.ofNat 0)).symm

end Store

end EloquentEntity

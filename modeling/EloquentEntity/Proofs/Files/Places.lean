import EloquentEntity.Proofs.Files.Limits
import EloquentEntity.Proofs.Files.Reading
import EloquentEntity.Proofs.OrderedMap
import Mathlib.Data.List.Induction

/-!
Places in a tree, and the paths that lead to them.

A tree is well formed when directories stand above everything in it and above the current
directory. Then a path through plain names leads to a place exactly when a directory stands above
that place and the path is within the limits. Names `..` may stand only where directories exist
already.
-/

namespace EloquentEntity.FileTree

variable {t t' : FileTree} {p : Path} {q r here xs ys : List String} {x : String} {n : FileNode}

/-- Directories stand above everything, and the current directory is one. -/
structure WellFormed (t : FileTree) : Prop where
  current_plain : ".." ∉ t.current
  current_directory : t.node? t.current = some .directory
  parent_directory : ∀ {q x n}, t.node? (q ++ [x]) = some n → t.node? q = some .directory

/-! ### Nodes -/

@[simp] lemma node?_nil (t : FileTree) : t.node? [] = some .directory := if_pos rfl

lemma node?_of_ne (h : q ≠ []) : t.node? q = t.nodes.get? q := if_neg h

lemma node?_set (h : q ≠ []) (r : List String) :
    (t.set q n).node? r = if r = q then some n else t.node? r := by
  by_cases hr : r = []
  · subst hr
    simp [h.symm]
  · rw [node?_of_ne hr, node?_of_ne hr, set, OrderedMap.get?_put]
    simp only [eq_comm]

lemma WellFormed.directory_above (ht : t.WellFormed) (h : t.node? (q ++ r) = some n)
    (hr : r ≠ []) : t.node? q = some .directory := by
  induction r using List.reverseRecOn generalizing n with
  | nil => exact absurd rfl hr
  | append_singleton r x ih =>
    rw [← List.append_assoc] at h
    have hq := ht.parent_directory h
    rcases eq_or_ne r [] with rfl | hr'
    · simpa using hq
    · exact ih hq hr'

lemma WellFormed.directory_of_prefix (ht : t.WellFormed)
    (h : t.node? (q ++ r) = some .directory) : t.node? q = some .directory := by
  rcases eq_or_ne r [] with rfl | hr
  · simpa using h
  · exact ht.directory_above h hr

/-- Well-formedness can be read off the entries of a tree. -/
lemma wellFormed_iff : t.WellFormed ↔
    ".." ∉ t.current ∧ t.node? t.current = some .directory ∧
      ∀ e ∈ t.nodes.entries, e.1 ≠ [] → t.node? e.1.dropLast = some .directory := by
  constructor
  · intro ht
    refine ⟨ht.current_plain, ht.current_directory, fun e he hne => ?_⟩
    have hn : t.node? e.1 = some e.2 := by
      rw [node?_of_ne hne]
      exact OrderedMap.get?_eq_some_iff.mpr he
    rw [← List.dropLast_append_getLast hne] at hn
    exact ht.parent_directory hn
  · rintro ⟨hplain, hcurrent, hall⟩
    refine ⟨hplain, hcurrent, fun {q x n} hn => ?_⟩
    rw [node?_of_ne (by simp)] at hn
    simpa using hall _ (OrderedMap.get?_eq_some_iff.mp hn) (by simp)

instance (t : FileTree) : Decidable t.WellFormed := decidable_of_iff _ wellFormed_iff.symm

/-! ### Walking -/

/-- Where a path leads, read off the path alone. -/
def locate (t : FileTree) (p : Path) : List String :=
  Path.collapse (if p.isAbsolute then [] else t.current) p.parts

lemma collapse_append (q xs ys : List String) :
    Path.collapse q (xs ++ ys) = Path.collapse (Path.collapse q xs) ys := by
  induction xs generalizing q with
  | nil => rfl
  | cons x xs ih =>
    simp only [List.cons_append, Path.collapse]
    split <;> exact ih _

lemma collapse_plain (q : List String) (h : ".." ∉ xs) : Path.collapse q xs = q ++ xs := by
  induction xs generalizing q with
  | nil => simp [Path.collapse]
  | cons x xs ih =>
    simp only [List.mem_cons, not_or] at h
    rw [Path.collapse, if_neg (Ne.symm h.1), ih _ h.2]
    simp

lemma collapse_notMem (xs : List String) (h : ".." ∉ q) : ".." ∉ Path.collapse q xs := by
  induction xs generalizing q with
  | nil => exact h
  | cons x xs ih =>
    rw [Path.collapse]
    split
    · exact ih fun hm => h ((List.dropLast_sublist _).mem hm)
    · next hx => exact ih (by simp [h, Ne.symm hx])

/-- A path leads from one place to another: back over `..`, and on through directories to its last
name, which may be missing. -/
inductive Leads (t : FileTree) : List String → List String → List String → Prop
  | stay {here : List String} : Leads t here [] here
  | back {here xs q : List String} : Leads t here.dropLast xs q → Leads t here (".." :: xs) q
  | last {here : List String} {x : String} : x ≠ ".." → x.utf8ByteSize ≤ nameLimit →
      Leads t here [x] (here ++ [x])
  | into {here xs q : List String} {x : String} : x ≠ ".." → x.utf8ByteSize ≤ nameLimit →
      xs ≠ [] → t.node? (here ++ [x]) = some .directory → Leads t (here ++ [x]) xs q →
      Leads t here (x :: xs) q

lemma walk_back (t : FileTree) (here xs : List String) :
    t.walk here (".." :: xs) = t.walk here.dropLast xs := by
  rw [walk, if_pos rfl]

lemma walk_tooLong (hx : x ≠ "..") (hlong : nameLimit < x.utf8ByteSize) :
    t.walk here (x :: xs) = .error .nameTooLong := by
  rw [walk, if_neg hx, if_pos hlong]

lemma walk_last (hx : x ≠ "..") (hshort : x.utf8ByteSize ≤ nameLimit) :
    t.walk here [x] = .ok (here ++ [x]) := by
  rw [walk, if_neg hx, if_neg (Nat.not_lt.mpr hshort), if_pos rfl]

lemma walk_cons (hx : x ≠ "..") (hshort : x.utf8ByteSize ≤ nameLimit) (hxs : xs ≠ []) :
    t.walk here (x :: xs) = match t.node? (here ++ [x]) with
      | some .directory => t.walk (here ++ [x]) xs
      | some _ => .error .notADirectory
      | none => .error .notFound := by
  rw [walk, if_neg hx, if_neg (Nat.not_lt.mpr hshort)]
  exact if_neg hxs

lemma walk_into (hx : x ≠ "..") (hshort : x.utf8ByteSize ≤ nameLimit) (hxs : xs ≠ [])
    (hn : t.node? (here ++ [x]) = some .directory) :
    t.walk here (x :: xs) = t.walk (here ++ [x]) xs := by
  rw [walk_cons hx hshort hxs, hn]

lemma leads_of_walk (h : t.walk here xs = .ok q) : t.Leads here xs q := by
  induction xs generalizing here with
  | nil =>
    cases h
    exact .stay
  | cons x xs ih =>
    rcases eq_or_ne x ".." with rfl | hx
    · rw [walk_back] at h
      exact .back (ih h)
    rcases Nat.lt_or_ge nameLimit x.utf8ByteSize with hlong | hshort
    · rw [walk_tooLong hx hlong] at h
      cases h
    rcases eq_or_ne xs [] with rfl | hxs
    · rw [walk_last hx hshort] at h
      cases h
      exact .last hx hshort
    · rw [walk_cons hx hshort hxs] at h
      split at h
      · next hn => exact .into hx hshort hxs hn (ih h)
      · cases h
      · cases h

lemma Leads.walk_eq (h : t.Leads here xs q) : t.walk here xs = .ok q := by
  induction h with
  | stay => rfl
  | back _ ih => rw [walk_back, ih]
  | last hx hshort => exact walk_last hx hshort
  | into hx hshort hxs hn _ ih => rw [walk_into hx hshort hxs hn, ih]

lemma walk_eq_collapse (h : t.walk here xs = .ok q) : q = Path.collapse here xs := by
  replace h := leads_of_walk h
  induction h with
  | stay => rfl
  | back _ ih => rw [Path.collapse, if_pos rfl, ← ih]
  | last hx => rw [Path.collapse, if_neg hx, Path.collapse]
  | into hx _ _ _ _ ih => rw [Path.collapse, if_neg hx, ← ih]

/-- A path that leads somewhere has no name that is too long. -/
lemma Leads.names (h : t.Leads here xs q) : ∀ x ∈ xs, x.utf8ByteSize ≤ nameLimit := by
  have hdots : "..".utf8ByteSize ≤ nameLimit := by decide +kernel
  induction h with
  | stay => simp
  | back _ ih => simpa [hdots] using ih
  | last _ hshort => simpa using hshort
  | into _ hshort _ _ _ ih => simpa [hshort] using ih

lemma place_of_checkPath (h : checkPath p = .ok ()) :
    t.place p = t.walk (if p.isAbsolute then [] else t.current) p.parts := by
  rw [place, h]

lemma checkPath_of_place (h : t.place p = .ok q) : checkPath p = .ok () := by
  rw [place] at h
  rcases hc : checkPath p with f | _
  · simp [hc] at h
  · rfl

lemma walk_of_place (h : t.place p = .ok q) :
    t.walk (if p.isAbsolute then [] else t.current) p.parts = .ok q :=
  (place_of_checkPath (checkPath_of_place h)).symm.trans h

lemma fits_of_place (h : t.place p = .ok q) : p.Fits :=
  ⟨checkPath_of_place h, (leads_of_walk (walk_of_place h)).names⟩

lemma at?_of_not_fits (h : ¬p.Fits) : t.at? p = none := by
  rw [at?]
  rcases hp : t.place p with f | q
  · rfl
  · exact absurd (fits_of_place hp) h

lemma place_eq_locate (h : t.place p = .ok q) : q = t.locate p := walk_eq_collapse (walk_of_place h)

/-- A path leads to something of its own last name. -/
lemma place_concat (h : t.place p = .ok q) (hp : p.parts = xs ++ [x]) (hx : x ≠ "..") :
    ∃ above, q = above ++ [x] := by
  rw [place_eq_locate h, locate, hp, collapse_append, collapse_plain _ (by simpa using hx.symm)]
  exact ⟨_, rfl⟩

/-- A path goes on from the directory that its first part leads to. -/
lemma walk_append (h : t.walk here xs = .ok q) (hq : t.node? q = some .directory)
    (hys : ys ≠ []) : t.walk here (xs ++ ys) = t.walk q ys := by
  replace h := leads_of_walk h
  induction h with
  | stay => rfl
  | back _ ih => rw [List.cons_append, walk_back, ih hq]
  | last hx hshort => exact walk_into hx hshort hys hq
  | into hx hshort _ hn _ ih =>
    rw [List.cons_append, walk_into hx hshort (by simp [hys]) hn, ih hq]

lemma Leads.mono (hd : ∀ r, t.node? r = some .directory → t'.node? r = some .directory)
    (h : t.Leads here xs q) : t'.Leads here xs q := by
  induction h with
  | stay => exact .stay
  | back _ ih => exact .back ih
  | last hx hshort => exact .last hx hshort
  | into hx hshort hxs hn _ ih => exact .into hx hshort hxs (hd _ hn) ih

lemma place_mono (hc : t'.current = t.current)
    (hd : ∀ r, t.node? r = some .directory → t'.node? r = some .directory)
    (h : t.place p = .ok q) : t'.place p = .ok q := by
  rw [place_of_checkPath (checkPath_of_place h), hc]
  exact ((leads_of_walk (walk_of_place h)).mono hd).walk_eq

lemma walk_tooLong_mono (hd : ∀ r, t.node? r = some .directory → t'.node? r = some .directory)
    (h : t.walk here xs = .error .nameTooLong) : t'.walk here xs = .error .nameTooLong := by
  induction xs generalizing here with
  | nil => cases h
  | cons x xs ih =>
    by_cases hx : x = ".."
    · subst hx
      rw [walk_back] at h ⊢
      exact ih h
    rcases Nat.lt_or_ge nameLimit x.utf8ByteSize with hlong | hshort
    · exact walk_tooLong hx hlong
    by_cases hxs : xs = []
    · rw [hxs, walk_last hx hshort] at h
      cases h
    rw [walk_cons hx hshort hxs] at h
    rcases hn : t.node? (here ++ [x]) with _ | _ | _ | _
    all_goals rw [hn] at h
    case some.directory => exact (walk_into hx hshort hxs (hd _ hn)).trans (ih h)
    all_goals cases h

/-- Where the system does not answer it does not do so with more directories either. -/
lemma refuses_mono (hc : t'.current = t.current)
    (hd : ∀ r, t.node? r = some .directory → t'.node? r = some .directory)
    (h : t.Refuses p) : t'.Refuses p := by
  rw [Refuses, place] at h ⊢
  rcases hcheck : checkPath p with f | _
  · rw [hcheck] at h
    exact h
  · rw [hcheck] at h
    rw [hc]
    exact walk_tooLong_mono hd h

/-- A name that is too long is found out where the directory is there that it is looked up in. -/
lemma refuses_child (h : t.place p = .ok q) (hq : t.node? q = some .directory) (hx : x ≠ "..")
    (hnull : '\x00' ∉ x.toList) (hlong : nameLimit < x.utf8ByteSize) : t.Refuses (p.child x) := by
  have hnames : ∀ y ∈ (p.child x).parts, '\x00' ∉ y.toList := by
    intro y hy
    rcases List.mem_append.mp hy with hy | hy
    · exact ((Path.fits_iff.mp (fits_of_place h)).2 y hy).1
    · exact List.mem_singleton.mp hy ▸ hnull
  rcases hcheck : checkPath (p.child x) with f | _
  · have hf : f = .nameTooLong := by
      rw [checkPath] at hcheck
      split at hcheck
      · next hmem =>
        obtain ⟨y, hy, hn⟩ := Path.null_mem_toString_iff.mp (List.contains_iff_mem.mp hmem)
        exact absurd hn (hnames y hy)
      · split at hcheck <;> cases hcheck
        rfl
    rw [Refuses, place, hcheck, hf]
  · rw [Refuses, place_of_checkPath hcheck]
    exact (walk_append (walk_of_place h) hq (by simp)).trans (walk_tooLong hx hlong)

/-- A way through plain names is decided by what stands from its start on. -/
lemma walk_congr (h : ∀ r, here <+: r → t'.node? r = t.node? r) (hxs : ".." ∉ xs) :
    t'.walk here xs = t.walk here xs := by
  induction xs generalizing here with
  | nil => rfl
  | cons x xs ih =>
    simp only [List.mem_cons, not_or] at hxs
    have hx := h _ (List.prefix_append here [x])
    have hon := ih (fun r hr => h r ((List.prefix_append here [x]).trans hr)) hxs.2
    rw [walk, walk, hx, hon, if_neg (Ne.symm hxs.1), if_neg (Ne.symm hxs.1)]

/-- Through directories a path leads on to any name that is not too long. -/
lemma walk_directories (hd : ∀ zs, zs <+: xs → t.node? (q ++ zs) = some .directory)
    (hplain : ".." ∉ xs ++ [x]) :
    t.walk q (xs ++ [x]) = if ∀ y ∈ xs ++ [x], y.utf8ByteSize ≤ nameLimit then .ok (q ++ xs ++ [x])
      else .error .nameTooLong := by
  induction xs generalizing q with
  | nil =>
    have hx : x ≠ ".." := by simpa [eq_comm] using hplain
    rcases Nat.lt_or_ge nameLimit x.utf8ByteSize with hlong | hshort
    · rw [List.nil_append, walk_tooLong hx hlong, if_neg (by simpa using hlong)]
    · rw [List.nil_append, walk_last hx hshort, if_pos (by simpa using hshort), List.append_nil]
  | cons y xs ih =>
    rw [List.cons_append, List.mem_cons, not_or] at hplain
    rw [List.cons_append]
    rcases Nat.lt_or_ge nameLimit y.utf8ByteSize with hlong | hshort
    · rw [walk_tooLong (Ne.symm hplain.1) hlong, if_neg]
      exact fun hall => absurd (hall y List.mem_cons_self) (Nat.not_le.mpr hlong)
    · have hnext := ih (q := q ++ [y]) (fun zs hz => by
        simpa using hd (y :: zs) (List.cons_prefix_cons.mpr ⟨rfl, hz⟩)) hplain.2
      rw [walk_into (Ne.symm hplain.1) hshort (by simp) (hd [y] (by simp)), hnext]
      simp only [List.forall_mem_cons (a := y), and_iff_right hshort, List.append_assoc,
        List.singleton_append]

lemma WellFormed.leads_prefix (ht : t.WellFormed) (hd : t.node? here = some .directory)
    (hys : ys ≠ []) (h : t.Leads here (xs ++ ys) r) :
    ∃ q, t.Leads here xs q ∧ t.node? q = some .directory := by
  generalize hzs : xs ++ ys = zs at h
  induction h generalizing xs with
  | stay => exact absurd (List.append_eq_nil_iff.mp hzs).2 hys
  | @back here zs r _ ih =>
    cases xs with
    | nil => exact ⟨here, .stay, hd⟩
    | cons x xs =>
      cases hzs
      have hparent : t.node? here.dropLast = some .directory := by
        rcases here.eq_nil_or_concat with rfl | ⟨a, b, rfl⟩
        · exact node?_nil t
        · rw [List.concat_eq_append, List.dropLast_concat]
          rw [List.concat_eq_append] at hd
          exact ht.parent_directory hd
      obtain ⟨q, hq, hqd⟩ := ih hparent rfl
      exact ⟨q, .back hq, hqd⟩
  | @last here z hz hshort =>
    -- The last name is not part of the first components.
    cases xs with
    | nil => exact ⟨here, .stay, hd⟩
    | cons x xs =>
      obtain ⟨-, hnil⟩ := List.cons.inj hzs
      exact absurd (List.append_eq_nil_iff.mp hnil).2 hys
  | @into here z zs r hz hshort _ hn _ ih =>
    cases xs with
    | nil => exact ⟨here, .stay, hd⟩
    | cons x xs =>
      obtain ⟨rfl, rfl⟩ := List.cons.inj hzs
      rcases eq_or_ne xs [] with rfl | hxs
      · exact ⟨_, .last hz hshort, hn⟩
      · obtain ⟨q, hq, hqd⟩ := ih hn rfl
        exact ⟨q, .into hz hshort hxs hn hq, hqd⟩

lemma WellFormed.directories (ht : t.WellFormed) (h : t.node? (q ++ xs) = some .directory)
    {zs : List String} (hz : zs <+: xs) : t.node? (q ++ zs) = some .directory := by
  obtain ⟨r, rfl⟩ := hz
  rw [← List.append_assoc] at h
  exact ht.directory_of_prefix h

/-- Nothing but directories stands on the way from `q` through `xs`, as far as it exists. -/
def Clear (t : FileTree) (q xs : List String) : Prop :=
  ∀ zs n, zs <+: xs → t.node? (q ++ zs) = some n → n = .directory

lemma WellFormed.clear_of_directory (ht : t.WellFormed)
    (h : t.node? (q ++ xs) = some .directory) : t.Clear q xs := by
  intro zs n hz hn
  exact Option.some.inj (hn.symm.trans (ht.directories h hz))

/-- Where a directory is missing above the last name, a path without long names leads nowhere:
because something else stands on the way, or because nothing does. -/
lemma WellFormed.walk_error (ht : t.WellFormed) (hq : t.node? q = some .directory)
    (hxs : ".." ∉ xs) (hshort : ∀ y ∈ xs, y.utf8ByteSize ≤ nameLimit)
    (h : t.node? (q ++ xs) ≠ some .directory) :
    (t.walk q (xs ++ [x]) = .error .notFound ∧ t.Clear q xs) ∨
      (t.walk q (xs ++ [x]) = .error .notADirectory ∧ ¬t.Clear q xs) := by
  induction xs generalizing q with
  | nil => exact absurd (by simpa using hq) h
  | cons y xs ih =>
    simp only [List.mem_cons, not_or] at hxs
    rw [List.forall_mem_cons] at hshort
    rw [List.cons_append, walk_cons (Ne.symm hxs.1) hshort.1 (by simp)]
    rcases hy : t.node? (q ++ [y]) with _ | n
    · -- Nothing stands at the next name, and so nothing further on.
      refine .inl ⟨rfl, fun zs n hz hn => ?_⟩
      rcases zs with _ | ⟨z, zs⟩
      · rw [List.append_nil, hq] at hn
        exact (Option.some.inj hn).symm
      · obtain ⟨rfl, -⟩ := List.cons_prefix_cons.mp hz
        have hzs : t.node? ((q ++ [z]) ++ zs) = some n := by simpa using hn
        rcases eq_or_ne zs [] with rfl | hne
        · simp [hy] at hzs
        · rw [ht.directory_above hzs hne] at hy
          cases hy
    · by_cases hn : n = .directory
      · subst hn
        have hcons : t.Clear q (y :: xs) ↔ t.Clear (q ++ [y]) xs := by
          constructor
          · intro hc zs n hz hn
            exact hc (y :: zs) n (List.cons_prefix_cons.mpr ⟨rfl, hz⟩) (by simpa using hn)
          · intro hc zs n hz hn
            rcases zs with _ | ⟨z, zs⟩
            · rw [List.append_nil, hq] at hn
              exact (Option.some.inj hn).symm
            · obtain ⟨rfl, hz'⟩ := List.cons_prefix_cons.mp hz
              exact hc zs n hz' (by simpa using hn)
        rw [hcons]
        exact ih hy hxs.2 hshort.2 (by simpa using h)
      · -- Something stands there that is no directory.
        refine .inr ⟨?_, fun hc => hn (hc [y] n (by simp) hy)⟩
        cases n
        · exact absurd rfl hn
        all_goals rfl

/-! ### Paths through an existing directory -/

/-- A path that leads to an existing directory `q` and from there through plain names. -/
structure Reaches (t : FileTree) (p : Path) (q xs : List String) : Prop where
  split : ∃ base, p.parts = base ++ xs ∧ t.place ⟨p.root, base⟩ = .ok q
  directory : t.node? q = some .directory
  plain : ".." ∉ xs

namespace Reaches

lemma place (h : t.Reaches p q xs) (hxs : xs ≠ []) (hp : checkPath p = .ok ()) :
    t.place p = t.walk q xs := by
  obtain ⟨base, hparts, hb⟩ := h.split
  rw [place_of_checkPath hp, hparts]
  exact walk_append (walk_of_place hb) h.directory hxs

lemma place_nil (h : t.Reaches p q []) : t.place p = .ok q := by
  obtain ⟨base, hp, hb⟩ := h.split
  rw [List.append_nil] at hp
  rw [← hb, ← hp]

lemma child (h : t.Reaches p q xs) (hx : x ≠ "..") : t.Reaches (p.child x) q (xs ++ [x]) := by
  obtain ⟨base, hp, hb⟩ := h.split
  exact ⟨⟨base, by simp [Path.child, hp], hb⟩, h.directory, by simp [h.plain, Ne.symm hx]⟩

lemma parent (h : t.Reaches p q (xs ++ [x])) : t.Reaches p.parent q xs := by
  obtain ⟨base, hp, hb⟩ := h.split
  refine ⟨⟨base, ?_, hb⟩, h.directory, fun hm => h.plain (by simp [hm])⟩
  rw [Path.parent, hp, ← List.append_assoc, List.dropLast_concat]

lemma locate (h : t.Reaches p q xs) : t.locate p = q ++ xs := by
  obtain ⟨base, hp, hb⟩ := h.split
  rw [FileTree.locate, hp, collapse_append, collapse_plain _ h.plain]
  congr 1
  exact (place_eq_locate hb).symm

lemma mono (h : t.Reaches p q xs) (hc : t'.current = t.current)
    (hd : ∀ r, t.node? r = some .directory → t'.node? r = some .directory) :
    t'.Reaches p q xs := by
  obtain ⟨base, hp, hb⟩ := h.split
  exact ⟨⟨base, hp, place_mono hc hd hb⟩, hd q h.directory, h.plain⟩

lemma names (h : t.Reaches p q xs) (hp : p.Fits) : ∀ x ∈ xs, x.utf8ByteSize ≤ nameLimit := by
  obtain ⟨base, hparts, -⟩ := h.split
  exact fun x hx => hp.names x (by simp [hparts, hx])

/-- Below an existing directory a path leads to its last name. -/
lemma place_eq (h : t.Reaches p q (xs ++ [x])) (hp : p.Fits)
    (hd : ∀ zs, zs <+: xs → t.node? (q ++ zs) = some .directory) :
    t.place p = .ok (q ++ xs ++ [x]) := by
  rw [h.place (by simp) hp.text, walk_directories hd h.plain, if_pos (h.names hp)]

/-- Within the limits only a missing directory, or something in its place, keeps a path from leading
to its last name. -/
lemma place_cases (h : t.Reaches p q (xs ++ [x])) (hp : p.Fits) (ht : t.WellFormed) :
    (t.node? (q ++ xs) = some .directory ∧ t.place p = .ok (q ++ xs ++ [x])) ∨
      (t.place p = .error .notFound ∧ t.Clear q xs) ∨
      (t.place p = .error .notADirectory ∧ ¬t.Clear q xs) := by
  by_cases hd : t.node? (q ++ xs) = some .directory
  · exact .inl ⟨hd, h.place_eq hp fun zs hz => ht.directories hd hz⟩
  · rw [h.place (by simp) hp.text]
    exact .inr (ht.walk_error h.directory (fun hm => h.plain (List.mem_append_left _ hm))
      (fun y hy => h.names hp y (List.mem_append_left _ hy)) hd)

/-- Beyond the limits the system does not come to look for directories that are missing. -/
lemma exists_place_error (h : t.Reaches p q (xs ++ [x])) (hp : ¬p.Fits) (ht : t.WellFormed)
    (hd : t.node? (q ++ xs) = some .directory) : ∃ f, t.place p = .error f ∧ f ≠ .notFound := by
  rcases hc : checkPath p with f | _
  · refine ⟨f, by rw [FileTree.place, hc], fun hf => ?_⟩
    rw [checkPath, hf] at hc
    split_ifs at hc <;> cases hc
  · obtain ⟨base, hparts, hb⟩ := h.split
    refine ⟨.nameTooLong, ?_, by simp⟩
    rw [h.place (by simp) hc, walk_directories (fun zs hz => ht.directories hd hz) h.plain, if_neg]
    refine fun hnames => hp ⟨hc, fun y hy => ?_⟩
    rw [hparts, List.mem_append] at hy
    exact hy.elim ((fits_of_place hb).names y) (hnames y)

lemma ne_directory_of_notFound (h : t.Reaches p q (xs ++ [x])) (ht : t.WellFormed)
    (hplace : t.place p = .error .notFound) : t.node? (q ++ xs) ≠ some .directory := by
  intro hd
  by_cases hp : p.Fits
  · rw [h.place_eq hp fun zs hz => ht.directories hd hz] at hplace
    cases hplace
  · obtain ⟨f, hf, hne⟩ := h.exists_place_error hp ht hd
    rw [hf] at hplace
    exact hne (Except.error.inj hplace)

lemma place_of_directory (h : t.Reaches p q xs) (hp : p.Fits) (ht : t.WellFormed)
    (hd : t.node? (q ++ xs) = some .directory) : t.place p = .ok (q ++ xs) := by
  rcases xs.eq_nil_or_concat with rfl | ⟨ys, y, rfl⟩
  · simpa using h.place_nil
  · rw [List.concat_eq_append, ← List.append_assoc] at *
    exact h.place_eq hp fun zs hz => ht.directories (ht.directory_of_prefix hd) hz

end Reaches

/-- The first part of a path that leads somewhere leads to a directory. -/
lemma WellFormed.exists_reaches (ht : t.WellFormed) {root : PathRoot} {base : List String}
    (hys : ys ≠ []) (h : t.place ⟨root, base ++ ys⟩ = .ok r) :
    ∃ q, t.place ⟨root, base⟩ = .ok q ∧ t.node? q = some .directory := by
  have hstart : t.node? (if (Path.mk root base).isAbsolute then [] else t.current) =
      some .directory := by
    split
    · exact node?_nil t
    · exact ht.current_directory
  obtain ⟨q, hq, hd⟩ := ht.leads_prefix hstart hys (leads_of_walk (walk_of_place h))
  refine ⟨q, ?_, hd⟩
  rw [place_of_checkPath (fits_of_place h).of_append.text]
  exact hq.walk_eq

end EloquentEntity.FileTree

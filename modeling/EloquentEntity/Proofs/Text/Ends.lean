import EloquentEntity.Text.Blank
import Mathlib.Data.List.DropRight
import Mathlib.Data.List.TakeWhile
import Mathlib.Tactic.Common

/-!
The ends of a text: the part in front of the first character of some kind, the part behind the last
one, and what is left between such characters at both ends.
-/

namespace EloquentEntity.Text

variable {p : Char → Bool} {s t u v w : List Char} {c x : Char}

/-! ### The first of some characters -/

lemma takeWhile_append_stop (hs : ∀ c ∈ s, p c) (ht : ∀ c ∈ t.head?, p c = false) :
    (s ++ t).takeWhile p = s := by
  rw [List.takeWhile_append_of_pos hs]
  cases t with
  | nil => exact List.append_nil s
  | cons c t => rw [List.takeWhile_cons_of_neg (by simp [ht c rfl]), List.append_nil]

lemma dropWhile_append_stop (hs : ∀ c ∈ s, p c) (ht : ∀ c ∈ t.head?, p c = false) :
    (s ++ t).dropWhile p = t := by
  rw [List.dropWhile_append_of_pos hs]
  cases t with
  | nil => rfl
  | cons c t => exact List.dropWhile_cons_of_neg (by simp [ht c rfl])

lemma bne_of_mem (h : x ∉ s) (hc : c ∈ s) : c != x := by
  rw [bne_iff_ne]
  rintro rfl
  exact h hc

lemma takeWhile_bne_of_notMem (h : x ∉ s) : s.takeWhile (· != x) = s :=
  List.takeWhile_eq_self_iff.mpr fun _ => bne_of_mem h

lemma takeWhile_bne_append (h : x ∉ s) (t : List Char) : (s ++ x :: t).takeWhile (· != x) = s :=
  takeWhile_append_stop (fun _ => bne_of_mem h) (by simp)

/-! ### The last of a character -/

/-- What follows the last of a character, or the whole text without one. -/
def afterLast (x : Char) (s : List Char) : List Char := (s.reverse.takeWhile (· != x)).reverse

lemma afterLast_of_notMem (h : x ∉ w) : afterLast x w = w := by
  rw [afterLast, takeWhile_bne_of_notMem (mt List.mem_reverse.mp h), List.reverse_reverse]

lemma afterLast_append (h : x ∉ w) (s : List Char) : afterLast x (s ++ x :: w) = w := by
  rw [afterLast, List.reverse_append, List.reverse_cons, List.append_assoc, List.singleton_append,
    takeWhile_bne_append (mt List.mem_reverse.mp h), List.reverse_reverse]

/-! ### Stripped texts -/

def strip (p : Char → Bool) (s : List Char) : List Char := dropTail p (s.dropWhile p)

lemma trim_eq_strip (s : List Char) : trim s = strip isBlank s := rfl

lemma strip_infix (p : Char → Bool) (s : List Char) : strip p s <:+: s :=
  (List.rdropWhile_prefix p _).isInfix.trans (List.dropWhile_suffix p).isInfix

lemma of_head?_dropWhile (h : (s.dropWhile p).head? = some c) : p c = false := by
  have := List.head?_dropWhile_not p s
  rwa [h] at this

lemma of_head?_strip (h : (strip p s).head? = some c) : p c = false := by
  obtain ⟨t, ht⟩ := List.rdropWhile_prefix p (s.dropWhile p)
  refine of_head?_dropWhile (s := s) ?_
  rw [← ht, List.head?_append, show ((s.dropWhile p).rdropWhile p).head? = some c from h]
  rfl

lemma of_getLast?_strip (h : (strip p s).getLast? = some c) : p c = false := by
  rw [strip, dropTail, List.getLast?_reverse] at h
  exact of_head?_dropWhile h

/-- Stripped is what neither begins nor ends with such a character. -/
lemma strip_eq_self_iff : strip p s = s ↔
    (∀ c, s.head? = some c → p c = false) ∧ ∀ c, s.getLast? = some c → p c = false := by
  constructor
  · intro h
    rw [← h]
    exact ⟨fun c => of_head?_strip, fun c => of_getLast?_strip⟩
  · rintro ⟨hhead, hlast⟩
    have hdrop {t : List Char} (h : ∀ c, t.head? = some c → p c = false) : t.dropWhile p = t := by
      cases t with
      | nil => rfl
      | cons c t => exact List.dropWhile_cons_of_neg (by simpa using h c rfl)
    rw [strip, dropTail, hdrop hhead, hdrop (by simpa using hlast), List.reverse_reverse]

lemma strip_strip (p : Char → Bool) (s : List Char) : strip p (strip p s) = strip p s :=
  strip_eq_self_iff.mpr ⟨fun _ => of_head?_strip, fun _ => of_getLast?_strip⟩

lemma strip_of_forall (h : ∀ c ∈ s, p c = false) : strip p s = s :=
  strip_eq_self_iff.mpr ⟨fun c hc => h c (List.mem_of_head? hc),
    fun c hc => h c (List.mem_of_getLast? hc)⟩

lemma strip_map {f : Char → Char} (h : ∀ c, p (f c) = p c) (s : List Char) :
    strip p (s.map f) = (strip p s).map f := by
  have hp : p ∘ f = p := funext h
  simp only [strip, dropTail, List.dropWhile_map, ← List.map_reverse, hp]

lemma strip_append (hu : ∀ c ∈ u, p c) (hv : ∀ c ∈ v, p c) (s : List Char) :
    strip p (u ++ s ++ v) = strip p s := by
  have htail (t : List Char) : dropTail p (t ++ v) = dropTail p t := by
    rw [dropTail, List.reverse_append,
      List.dropWhile_append_of_pos fun c hc => hv c (List.mem_reverse.mp hc), dropTail]
  rw [strip, List.append_assoc, List.dropWhile_append_of_pos hu, List.dropWhile_append, strip]
  split
  · next hs =>
    rw [List.isEmpty_iff] at hs
    rw [hs, List.dropWhile_eq_nil_iff.mpr hv]
  · exact htail _

end EloquentEntity.Text

import EloquentEntity.Naming
import EloquentEntity.Proofs.Text.Ascii
import EloquentEntity.Proofs.Text.Ends

/-!
Table names of models that are named in words.

A name made of words, each with a capital in front, is parted before every capital but the first,
also where a word is the capital alone. So in snake case its words stand in lower case with an
underscore between each two of them, and what follows the last underscore is the last word. A text
is put into the plural by its last word alone, but an underscore in front of the only word is lost.
-/

namespace EloquentEntity.Naming

open EloquentEntity.Text Syntax

variable {s w last : List Char} {c d : Char} {words : List (List Char)}

/-! ### Words -/

/-- A capital, then lower-case letters and digits. -/
def Capitalized : List Char → Prop
  | [] => False
  | c :: s => c.isUpper ∧ s.all fun d => d.isLower || d.isDigit

instance : DecidablePred Capitalized
  | [] => inferInstanceAs (Decidable False)
  | c :: s => inferInstanceAs (Decidable (c.isUpper ∧ s.all fun d => d.isLower || d.isDigit))

lemma Capitalized.exists_cons (h : Capitalized w) :
    ∃ c s, w = c :: s ∧ c.isUpper ∧ ∀ d ∈ s, d.isLower ∨ d.isDigit := by
  cases w with
  | nil => cases h
  | cons c s => exact ⟨c, s, rfl, h.1, by simpa using h.2⟩

/-- All characters of a word are ASCII letters and digits. -/
lemma Capitalized.isAlphanum (h : Capitalized w) : ∀ d ∈ w, d.isAlphanum := by
  obtain ⟨c, s, rfl, hc, hs⟩ := h.exists_cons
  intro d hd
  rw [isAlphanum_iff, isAlpha_iff, or_assoc]
  rcases List.mem_cons.mp hd with rfl | hd
  · exact .inl hc
  · exact .inr (hs d hd)

/-! ### Snake case -/

/-- A word is parted from a capital that follows it, and nowhere else. -/
lemma parted_append (hs : ∀ d ∈ s, d.isUpper = false) (hd : d.isUpper) (t : List Char) :
    parted (c :: (s ++ d :: t)) = c :: (s ++ '_' :: parted (d :: t)) := by
  induction s generalizing c with
  | nil => simp [parted, hd]
  | cons e s ih =>
    obtain ⟨he, hs⟩ := List.forall_mem_cons.mp hs
    rw [List.cons_append, parted, ih hs, he]
    rfl

lemma parted_of_forall (hs : ∀ d ∈ s, d.isUpper = false) : parted (c :: s) = c :: s := by
  induction s generalizing c with
  | nil => rfl
  | cons e s ih =>
    obtain ⟨he, hs⟩ := List.forall_mem_cons.mp hs
    rw [parted, ih hs, he]
    rfl

lemma isUpper_eq_false (h : d.isLower ∨ d.isDigit) : d.isUpper = false := by
  rw [Bool.eq_false_iff, Ne, isUpper_iff]
  rw [isLower_iff, isDigit_iff] at h
  omega

lemma parted_flatten (h : ∀ w ∈ words, Capitalized w) :
    parted words.flatten = ['_'].intercalate words := by
  induction words with
  | nil => rfl
  | cons w words ih =>
    obtain ⟨hw, hwords⟩ := List.forall_mem_cons.mp h
    obtain ⟨c, s, rfl, -, hs⟩ := hw.exists_cons
    have hupper : ∀ d ∈ s, d.isUpper = false := fun d hd => isUpper_eq_false (hs d hd)
    rcases words with _ | ⟨v, words⟩
    · simpa using parted_of_forall hupper
    · obtain ⟨d, t, rfl, hd, -⟩ := (hwords v (by simp)).exists_cons
      have hrest := ih hwords
      rw [List.flatten_cons, List.cons_append] at hrest
      rw [List.flatten_cons, List.flatten_cons, List.cons_append, List.cons_append,
        parted_append hupper hd, hrest, List.intercalate_cons_cons]
      simp

lemma asciiLower_intercalate (words : List (List Char)) :
    asciiLower (['_'].intercalate words) = ['_'].intercalate (words.map asciiLower) := by
  have happend (s t : List Char) : asciiLower (s ++ t) = asciiLower s ++ asciiLower t :=
    List.map_append
  induction words with
  | nil => rfl
  | cons w words ih =>
    rcases words with _ | ⟨v, words⟩
    · simp
    · rw [List.intercalate_cons_cons, happend, happend, ih]
      exact (List.intercalate_cons_cons ..).symm

lemma toNat_lt_of_mem_intercalate (h : ∀ w ∈ words, ∀ c ∈ w, c.toNat < 128) :
    ∀ c ∈ ['_'].intercalate words, c.toNat < 128 := by
  induction words with
  | nil => simp
  | cons w words ih =>
    obtain ⟨hw, hwords⟩ := List.forall_mem_cons.mp h
    rcases words with _ | ⟨v, words⟩
    · simpa using hw
    · rw [List.intercalate_cons_cons, List.append_assoc, List.forall_mem_append,
        List.forall_mem_append]
      exact ⟨hw, by simp, ih hwords⟩

lemma lower_intercalate (h : ∀ w ∈ words, ∀ c ∈ w, c.toNat < 128) :
    lower (['_'].intercalate words) = ['_'].intercalate (words.map lower) := by
  rw [lower_eq_asciiLower (toNat_lt_of_mem_intercalate h), asciiLower_intercalate]
  exact congrArg _ (List.map_congr_left fun w hw => (lower_eq_asciiLower (h w hw)).symm)

lemma withoutBlanks_of_isAlphanum (h : ∀ c ∈ s, c.isAlphanum) : withoutBlanks s = s :=
  List.filter_eq_self.mpr fun c hc => by
    rw [isBlank_eq_false_of_isAlphanum (h c hc), Bool.not_false]

lemma isAllLower_cons (h : c.isUpper) (s : List Char) : isAllLower (c :: s) = false := by
  have hlow := isUpper_iff.mp h
  have hupper : isUpperCase c = true := by
    rw [isUpperCase, if_pos (by omega)]
    exact h
  simp [isAllLower, hupper]

/-- In snake case the words are in lower case, with underscores between them. -/
lemma snake_flatten (h : ∀ w ∈ words, Capitalized w) (hne : words ≠ []) :
    snake words.flatten = ['_'].intercalate (words.map lower) := by
  have hletters : ∀ w ∈ words, ∀ c ∈ w, c.isAlphanum := fun w hw => (h w hw).isAlphanum
  have hcase : isAllLower words.flatten = false := by
    obtain ⟨w, words, rfl⟩ := List.exists_cons_of_ne_nil hne
    obtain ⟨c, s, rfl, hc, -⟩ := (h w (by simp)).exists_cons
    exact isAllLower_cons hc _
  have hblank : withoutBlanks words.flatten = words.flatten := by
    refine withoutBlanks_of_isAlphanum fun c hc => ?_
    obtain ⟨w, hw, hc⟩ := List.mem_flatten.mp hc
    exact hletters w hw c hc
  rw [snake, hcase, if_neg (by simp), hblank, parted_flatten h]
  refine lower_intercalate fun w hw c hc => ?_
  have := toNat_of_isAlphanum (hletters w hw c hc)
  omega

/-! ### The last word -/

lemma lastWord_of_notMem (hw : '_' ∉ w) : lastWord w = w := afterLast_of_notMem hw

lemma lastWord_append (hw : '_' ∉ w) (s : List Char) : lastWord (s ++ '_' :: w) = w :=
  afterLast_append hw s

lemma plural_of_notMem (hw : '_' ∉ w) (hne : w ≠ []) : plural w = pluralWord w := by
  rw [plural, beforeLastWord, lastWord_of_notMem hw]
  simp [hne]

/-- Only what follows the last underscore is put into the plural. -/
lemma plural_append (hs : s ≠ []) (hw : '_' ∉ w) :
    plural (s ++ '_' :: w) = s ++ '_' :: pluralWord w := by
  have hlength : (s ++ '_' :: w).length - w.length - 1 = s.length := by
    rw [List.length_append, List.length_cons]
    omega
  rw [plural, beforeLastWord, lastWord_append hw, hlength, List.take_left]
  simp [hs]

/-- An underscore with nothing in front gets lost. -/
lemma plural_cons (hw : '_' ∉ w) : plural ('_' :: w) = pluralWord w := by
  have hlength : ('_' :: w).length - w.length - 1 = 0 := by
    rw [List.length_cons]
    omega
  rw [plural, beforeLastWord, show lastWord ('_' :: w) = w from lastWord_append hw [], hlength]
  simp

lemma pluralName_of_notMem {w : String} (hw : '_' ∉ w.toList) (hne : w ≠ "") :
    (pluralName w).toList = pluralWord w.toList := by
  rw [pluralName, String.toList_ofList, plural_of_notMem hw (mt String.toList_eq_nil_iff.mp hne)]

/-- **The plural of a last word.** What precedes the last underscore of a name, and the underscore,
stay in front of the plural of the word behind it exactly if something precedes the underscore. -/
theorem pluralName_append {h w : String} (hw : '_' ∉ w.toList) (hne : w ≠ "") :
    pluralName (h ++ "_" ++ w) = (if h = "" then "" else h ++ "_") ++ pluralName w ∧
      (pluralName (h ++ "_" ++ w) = h ++ "_" ++ pluralName w ↔ h ≠ "") := by
  have hlast := pluralName_of_notMem hw hne
  have hname : pluralName (h ++ "_" ++ w) = (if h = "" then "" else h ++ "_") ++ pluralName w := by
    refine String.toList_injective ?_
    rw [String.toList_append, hlast, pluralName, String.toList_ofList, String.toList_append,
      String.toList_append, show "_".toList = ['_'] from rfl, List.append_assoc,
      List.singleton_append]
    split
    · next hempty =>
      rw [hempty]
      exact plural_cons hw
    · next hfront =>
      rw [plural_append (mt String.toList_eq_nil_iff.mp hfront) hw]
      simp
  refine ⟨hname, ?_⟩
  rw [hname]
  split
  · next hempty =>
    -- the underscore makes the texts differ in length
    refine iff_of_false (fun heq => ?_) (by simp [hempty])
    have := congrArg String.length heq
    simp [hempty] at this
  · next hfront => exact iff_of_true rfl hfront

/-- An irregular plural behind two underscores. -/
theorem pluralName_append_person :
    '_' ∉ "Person".toList ∧ "Person" ≠ "" ∧
      pluralName ("order_" ++ "_" ++ "Person") = "order_" ++ "_" ++ pluralName "Person" := by
  have hw : '_' ∉ "Person".toList := by decide
  have hne : "Person" ≠ "" := by decide
  exact ⟨hw, hne, (pluralName_append hw hne).2.mpr (by decide)⟩

/-- An underscore in front of the only word is not kept. -/
theorem pluralName_of_leading_underscore :
    pluralName ("" ++ "_" ++ "user") = "users" ∧
      pluralName ("" ++ "_" ++ "user") ≠ "" ++ "_" ++ pluralName "user" := by
  decide +kernel

lemma intercalate_concat (hne : words ≠ []) (last : List Char) :
    ['_'].intercalate (words ++ [last]) = ['_'].intercalate words ++ '_' :: last := by
  induction words with
  | nil => exact absurd rfl hne
  | cons w words ih =>
    rcases words with _ | ⟨v, words⟩
    · simp [List.intercalate_cons_cons]
    · rw [List.cons_append, List.cons_append, List.intercalate_cons_cons, ← List.cons_append,
        ih (by simp), List.intercalate_cons_cons, List.append_assoc _ _ ('_' :: last)]

/-- Of words with underscores between them, the last is put into the plural. -/
lemma plural_intercalate (hwords : [] ∉ words) (hlast : '_' ∉ last) (hne : last ≠ []) :
    plural (['_'].intercalate (words ++ [last])) =
      ['_'].intercalate (words ++ [plural last]) := by
  rcases words with _ | ⟨w, words⟩
  · simp
  · have hw : w ≠ [] := fun h => hwords (by simp [h])
    have hfront : ['_'].intercalate (w :: words) ≠ [] := by
      rcases words with _ | ⟨v, words⟩
      · simpa using hw
      · simp [List.intercalate_cons_cons]
    rw [intercalate_concat (by simp), plural_append hfront hlast, intercalate_concat (by simp),
      plural_of_notMem hlast hne]

lemma lower_of_capitalized (h : Capitalized w) : lower w ≠ [] ∧ '_' ∉ lower w := by
  have hascii : ∀ c ∈ w, c.toNat < 128 := fun c hc =>
    (toNat_of_isAlphanum (h.isAlphanum c hc)).2.trans_lt (by decide)
  rw [lower_eq_asciiLower hascii, asciiLower]
  refine ⟨?_, fun hm => ?_⟩
  · obtain ⟨c, s, rfl, -⟩ := h.exists_cons
    simp
  · obtain ⟨c, hc, hlow⟩ := List.mem_map.mp hm
    have hall : ∀ n < 128, (Char.ofNat n).isAlphanum → (Char.ofNat n).toLower ≠ '_' := by decide
    have hne := hall c.toNat (hascii c hc)
    rw [Char.ofNat_toNat] at hne
    exact hne (h.isAlphanum c hc) hlow

/-- **Conventional table names.** The table of a model that is named in words has these in lower
case for its name, the last one in the plural, with underscores between them. -/
theorem tableName_join {words : List String} {last : String}
    (hwords : ∀ w ∈ words, Capitalized w.toList) (hlast : Capitalized last.toList) :
    tableName (String.join (words ++ [last])) =
      "_".intercalate (words.map (fun w => String.ofList (lower w.toList)) ++
        [pluralName (String.ofList (lower last.toList))]) := by
  have hall : ∀ w ∈ (words ++ [last]).map String.toList, Capitalized w := by
    rw [List.forall_mem_map, List.forall_mem_append]
    exact ⟨hwords, by simpa using hlast⟩
  have hjoin : (String.join (words ++ [last])).toList =
      ((words ++ [last]).map String.toList).flatten := by
    rw [String.toList_join, List.flatMap_def]
  have hne : [] ∉ (words.map String.toList).map lower := by
    intro hm
    obtain ⟨w, hw, hnil⟩ := List.mem_map.mp hm
    obtain ⟨v, hv, rfl⟩ := List.mem_map.mp hw
    exact (lower_of_capitalized (hwords v hv)).1 hnil
  obtain ⟨hlastNe, hunderscore⟩ := lower_of_capitalized hlast
  refine String.toList_injective ?_
  rw [tableName, pluralName, snakeCase, hjoin, snake_flatten hall (by simp), String.toList_ofList,
    String.toList_ofList, List.map_append, List.map_append, List.map_singleton,
    List.map_singleton, plural_intercalate hne hunderscore hlastNe, String.toList_intercalate]
  simp [pluralName, Function.comp_def]

/-- Capitals next to each other are words of their own, and the last word has an irregular plural.
-/
theorem tableName_join_key :
    (∀ w ∈ ["A", "P", "I", "Key2"], Capitalized w.toList) ∧ Capitalized "Person".toList ∧
      tableName "APIKey2Person" = "a_p_i_key2_people" := by
  have hwords : ∀ w ∈ ["A", "P", "I", "Key2"], Capitalized w.toList := by decide
  have hlast : Capitalized "Person".toList := by decide
  exact ⟨hwords, hlast, (tableName_join hwords hlast).trans (by decide +kernel)⟩

end EloquentEntity.Naming

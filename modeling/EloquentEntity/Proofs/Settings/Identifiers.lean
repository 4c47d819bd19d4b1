import EloquentEntity.Proofs.Settings.OutputPath
import EloquentEntity.Proofs.Text.Ascii
import EloquentEntity.Proofs.Text.Ends

/-!
What the checks of names let through.

A stored namespace has segments that are labels, save that a line feed may end each of them, and it
may begin or end with white space that stood next to a slash; just then it is not what it is made
of anew. The class's name is made of a label and a suffix. It is an identifier if the suffix, in
which any character beyond ASCII may stand, keeps to those that a label may have.
-/

namespace EloquentEntity

namespace Text

variable {s : List Char}

/-! ### Labels -/

lemma chomp_of_getLast?_ne (h : s.getLast? ≠ some '\n') : chomp s = s := if_neg h

lemma isIdentifier_iff (h : s.getLast? ≠ some '\n') : isIdentifier s = isLabel s := by
  rw [isIdentifier, chomp_of_getLast?_ne h]

lemma notMem_of_isLabel (h : isLabel s) : '\n' ∉ s := fun hm =>
  absurd (isLabelChar_of_mem_label h hm) (by decide)

end Text

namespace Settings

variable {c : Settings} {s n : String}

/-! ### The namespace -/

lemma bareNamespace_eq_strip (s : List Char) : bareNamespace s = Text.strip isSlash (Text.trim s) :=
  rfl

/-- What is stored of a namespace starts and ends with no slash. -/
lemma strip_of_checkNamespace (h : checkNamespace s = .ok n) :
    Text.strip isSlash n.toList = n.toList := by
  have hslash (c : Char) : isSlash (if c == '/' then '\\' else c) = isSlash c := by
    by_cases hc : c = '/'
    · rw [hc]
      rfl
    · simp [hc]
  rw [(checkNamespace_eq_ok_iff.mp h).2, Text.strip_map hslash, bareNamespace_eq_strip,
    Text.strip_strip]

/-- A stored namespace is stored again as it is, if trimming leaves it alone. -/
lemma checkNamespace_again_iff (h : checkNamespace s = .ok n) :
    checkNamespace n = .ok n ↔ Text.trim n.toList = n.toList := by
  constructor
  · intro hn
    have hlength := congrArg List.length (checkNamespace_eq_ok_iff.mp hn).2
    rw [List.length_map, bareNamespace_eq_strip] at hlength
    have hbare := (Text.strip_infix isSlash (Text.trim n.toList)).length_le
    have htrim := Text.strip_infix Text.isBlank n.toList
    exact htrim.eq_of_length (Nat.le_antisymm htrim.length_le (hlength ▸ hbare))
  · intro htrim
    have hbare : bareNamespace n.toList = n.toList := by
      rw [bareNamespace_eq_strip, htrim, strip_of_checkNamespace h]
    rw [checkNamespace_eq_ok_iff, hbare]
    refine ⟨isIdentifier_of_checkNamespace h, (List.map_id' _).symm.trans ?_⟩
    refine List.map_congr_left fun c hc => ?_
    have hne : c ≠ '/' := fun he => notMem_of_checkNamespace h (he ▸ hc)
    simp [hne]

/-- Any other character than the one that parts them stands in one of the pieces. -/
lemma mem_iff_mem_splitOn {s : List Char} {x d : Char} (hd : d ≠ x) :
    d ∈ s ↔ ∃ p ∈ s.splitOn x, d ∈ p := by
  induction s with
  | nil => simp
  | cons c s ih =>
    rw [List.splitOn_eq_splitOnP] at ih ⊢
    rw [List.splitOnP_cons_eq_if_modifyHead]
    rcases hs : s.splitOnP (· == x) with _ | ⟨p, ps⟩
    · exact absurd hs (List.splitOnP_ne_nil _ _)
    · by_cases hc : c = x
      · simp [hc, hd, ih, hs]
      · simp [hc, ih, hs, or_assoc]

lemma isIdentifier_of_mem_splitOn (h : checkNamespace s = .ok n) {p : List Char}
    (hp : p ∈ n.toList.splitOn '\\') : Text.isIdentifier p := by
  rw [← segments_eq_splitOn (notMem_of_checkNamespace h)] at hp
  exact isIdentifier_of_checkNamespace h p hp

/-- The segments are labels if no line feed is stored. -/
lemma isLabel_segments_iff (h : checkNamespace s = .ok n) :
    (∀ p ∈ n.toList.splitOn '\\', Text.isLabel p) ↔ '\n' ∉ n.toList := by
  rw [mem_iff_mem_splitOn (x := '\\') (by decide)]
  constructor
  · rintro hlabels ⟨p, hp, hm⟩
    exact Text.notMem_of_isLabel (hlabels p hp) hm
  · intro hn p hp
    rw [← Text.isIdentifier_iff fun hl => hn ⟨p, hp, List.mem_of_getLast? hl⟩]
    exact isIdentifier_of_mem_splitOn h hp

/-- White space is stored only where it stood between other characters. -/
lemma isBlank_eq_false_of_checkNamespace (h : checkNamespace s = .ok n)
    (hs : ∀ d ∈ Text.trim s.toList, Text.isBlank d = false) :
    ∀ d ∈ n.toList, Text.isBlank d = false := by
  rw [(checkNamespace_eq_ok_iff.mp h).2, List.forall_mem_map]
  intro d hd
  split
  · rfl
  · exact hs d ((Text.strip_infix isSlash _).subset hd)

/-- **Stored namespaces.** What is stored of a namespace are segments with a backslash between each
two of them, each a label that one line feed may follow. All of them are labels exactly if no line
feed is stored. Stored again, the namespace stays as it is exactly if it neither begins nor ends
with white space. There is none in it, and both hold, where there is none between the ends of the
text that was given. -/
theorem checkNamespace_stores (h : checkNamespace s = .ok n) :
    (∀ p ∈ n.toList.splitOn '\\', ∃ label, Text.isLabel label ∧
      (p = label ∨ p = label ++ ['\n'])) ∧
    ((∀ p ∈ n.toList.splitOn '\\', Text.isLabel p) ↔ '\n' ∉ n.toList) ∧
    (checkNamespace n = .ok n ↔ Text.trim n.toList = n.toList) ∧
    ((∀ d ∈ Text.trim s.toList, Text.isBlank d = false) →
      (∀ p ∈ n.toList.splitOn '\\', Text.isLabel p) ∧ checkNamespace n = .ok n) := by
  refine ⟨fun p hp => ?_, isLabel_segments_iff h, checkNamespace_again_iff h, fun hs => ⟨?_, ?_⟩⟩
  · exact ⟨Text.chomp p, isIdentifier_of_mem_splitOn h hp, Text.chomp_cases p⟩
  · rw [isLabel_segments_iff h]
    exact fun hm => absurd (isBlank_eq_false_of_checkNamespace h hs _ hm) (by decide)
  · rw [checkNamespace_again_iff h, Text.trim_eq_strip]
    exact Text.strip_of_forall (isBlank_eq_false_of_checkNamespace h hs)

/-- Slashes of both kinds, between segments and at the ends. -/
theorem checkNamespace_stores_nested :
    checkNamespace " /Domain/Users\\ " = .ok "Domain\\Users" ∧
      checkNamespace "Domain\\Users" = .ok "Domain\\Users" := by
  have h : checkNamespace " /Domain/Users\\ " = .ok "Domain\\Users" := by decide +kernel
  exact ⟨h, (checkNamespace_stores h).2.2.1.mpr (by decide +kernel)⟩

/-- A line feed before a slash is stored, so that a segment is no label; and white space behind a
slash at the front is stored, but not when the namespace is stored again. -/
theorem checkNamespace_of_white_space :
    checkNamespace "A\n/B" = .ok "A\n\\B" ∧
      ¬ (∀ p ∈ "A\n\\B".toList.splitOn '\\', Text.isLabel p) ∧
      checkNamespace "/\u00a0A" = .ok "\u00a0A" ∧ checkNamespace "\u00a0A" = .ok "A" := by
  decide +kernel

/-! ### The name of the class -/

/-- The model's name in accepted settings is a label, without a line feed behind it. -/
lemma Accepted.isLabel_model (h : c.Accepted) : Text.isLabel c.model.toList := by
  obtain ⟨d, hd, hc⟩ := h.exists_checked .model
  rw [← hc]
  change Text.isLabel d.model.toList
  obtain ⟨hne, -⟩ | ⟨r, hr⟩ := hd
  · exact absurd rfl hne
  · obtain ⟨s, -, hr⟩ := exists_of_bind_eq_ok hr
    obtain ⟨m, hm, hr⟩ := exists_of_bind_eq_ok hr
    obtain rfl := Except.ok.inj hr
    rw [checkModel] at hm
    split at hm
    · next hi =>
      obtain rfl := Except.ok.inj hm
      rw [String.toList_ofList, ← Text.isIdentifier_iff]
      · exact hi
      · exact fun hl => absurd (Text.of_getLast?_strip (p := Text.isBlank) hl) (by decide)
    · cases hm

/-- Of the characters that a suffix may have, those beyond U+FFFF are no part of a label. -/
lemma isLabelChar_iff {d : Char} (h : isSuffixChar d) : Text.isLabelChar d ↔ d.toNat ≤ 0xFFFF := by
  have hascii (hd : d.isAlpha ∨ d = '_' ∨ d.isDigit) : d.toNat < 0x80 := by
    rcases hd with hd | rfl | hd
    · have := toNat_of_isAlpha hd
      omega
    · decide
    · have := isDigit_iff.mp hd
      omega
  simp only [isSuffixChar, isAlphanum_iff, Bool.or_eq_true, beq_iff_eq, decide_eq_true_eq] at h
  simp only [Text.isLabelChar, Text.isLabelStart, Bool.or_eq_true, Bool.and_eq_true, beq_iff_eq,
    decide_eq_true_eq]
  constructor
  · rintro (((hd | hd) | hd) | hd)
    · exact (hascii (.inl hd)).le.trans (by decide)
    · exact (hascii (.inr (.inl hd))).le.trans (by decide)
    · exact hd.2
    · exact (hascii (.inr (.inr hd))).le.trans (by decide)
  · intro hd
    rcases h with ((ha | ha) | ha) | ha
    · exact .inl (.inl (.inl ha))
    · exact .inr ha
    · exact .inl (.inl (.inr ha))
    · exact .inl (.inr ⟨ha, hd⟩)

lemma Accepted.notMem_className (h : c.Accepted) : '\n' ∉ c.className.toList := by
  rw [className, String.toList_append, List.mem_append, not_or]
  refine ⟨Text.notMem_of_isLabel h.isLabel_model, fun hm => ?_⟩
  exact absurd (List.all_eq_true.mp h.checked.suffix _ hm) (by decide)

/-- **The name of the class.** It holds no line feed, and it is an identifier exactly if no
character of the suffix lies beyond U+FFFF. -/
theorem isIdentifier_className_iff (h : c.Accepted) :
    '\n' ∉ c.className.toList ∧
      (Text.isIdentifier c.className.toList ↔ ∀ d ∈ c.suffix.toList, d.toNat ≤ 0xFFFF) := by
  have hnone := h.notMem_className
  refine ⟨hnone, ?_⟩
  have hmodel := h.isLabel_model
  rw [Text.isIdentifier_iff fun hl => hnone (List.mem_of_getLast? hl), className,
    String.toList_append]
  rcases hm : c.model.toList with _ | ⟨d, m⟩
  · simp [hm, Text.isLabel] at hmodel
  · rw [hm, Text.isLabel, Bool.and_eq_true] at hmodel
    rw [List.cons_append, Text.isLabel, List.all_append, hmodel.1, hmodel.2, Bool.true_and,
      Bool.true_and, List.all_eq_true]
    exact forall₂_congr fun d hd => isLabelChar_iff (List.all_eq_true.mp h.checked.suffix d hd)

/-- Letters of any script may stand in a suffix, and there may be none. -/
theorem isIdentifier_className_user :
    let c : Settings := { initial with model := "User", suffix := "Größe" }
    ofRaw [("model", .text "User\n"), ("suffix", .text " Größe ")] = .ok c ∧
      Text.isIdentifier c.className.toList ∧
      c.assign .suffix (.text "") = .ok { c with suffix := "" } ∧
      Text.isIdentifier ({ c with suffix := "" } : Settings).className.toList := by
  intro c
  have hmade : ofRaw [("model", .text "User\n"), ("suffix", .text " Größe ")] = .ok c := by
    decide +kernel
  have hc : c.Accepted := .made hmade
  have hbare : c.assign .suffix (.text "") = .ok { c with suffix := "" } := by decide +kernel
  exact ⟨hmade, (isIdentifier_className_iff hc).2.mpr (by simp [c]), hbare,
    (isIdentifier_className_iff (hc.assigned hbare)).2.mpr (by simp)⟩

/-- A suffix may have a character that no identifier has. -/
theorem not_isIdentifier_className :
    let c : Settings := { initial with model := "User", suffix := "😀" }
    ofRaw [("model", .text "User"), ("suffix", .text "😀")] = .ok c ∧
      Text.isIdentifier c.className.toList = false := by
  decide +kernel

end Settings

end EloquentEntity

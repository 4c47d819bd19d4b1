import EloquentEntity.Settings
import Mathlib.Data.List.Basic
import Mathlib.Tactic.Common

/-!
What holds of settings that were accepted, however they came about, and the paths that follow.

The names in accepted settings hold no slash, and none of them starts with a dot; so the output
path is the project's path with exactly one name more for each of them.
-/

namespace EloquentEntity

/-- Two steps that succeed are two steps that each succeed. -/
lemma exists_of_bind_eq_ok {ε α β : Type} {x : Except ε α} {f : α → Except ε β} {b : β}
    (h : x >>= f = .ok b) : ∃ a, x = .ok a ∧ f a = .ok b := by
  rcases x with e | a
  · cases h
  · exact ⟨a, rfl, h⟩

/-! ### Names as path components -/

/-- A name that is one component of a path wherever it stands. -/
def Path.Plain (s : List Char) : Prop := '/' ∉ s ∧ ∃ c r, s = c :: r ∧ c ≠ '.'

namespace Path

variable {s t : List Char} {names : List (List Char)}

lemma Plain.append (h : Plain s) (ht : '/' ∉ t) : Plain (s ++ t) := by
  obtain ⟨hs, c, r, rfl, hc⟩ := h
  exact ⟨by simp only [List.mem_append, not_or]; exact ⟨hs, ht⟩, c, r ++ t, rfl, hc⟩

lemma Plain.ofList_ne (h : Plain s) {u : String} (hu : u = "" ∨ u.toList.head? = some '.') :
    String.ofList s ≠ u := by
  obtain ⟨-, c, r, rfl, hc⟩ := h
  rintro rfl
  rcases hu with hu | hu
  · simp at hu
  · exact hc (by simpa using hu)

lemma splitSlashes_cons_of_ne {c : Char} (hc : c ≠ '/') (s : List Char) :
    splitSlashes (c :: s) =
      match splitSlashes s with
      | [] => [[c]]
      | p :: ps => (c :: p) :: ps := by
  cases h : splitSlashes s <;> simp [splitSlashes, h]

lemma splitSlashes_of_notMem (h : '/' ∉ s) : splitSlashes s = [s] := by
  induction s with
  | nil => rfl
  | cons c s ih =>
    simp only [List.mem_cons, not_or] at h
    rw [splitSlashes_cons_of_ne (Ne.symm h.1), ih h.2]

/-- What holds no slash stays in one piece with what stands right before it. -/
lemma splitSlashes_append (s : List Char) (ht : '/' ∉ t) :
    ∃ init p, splitSlashes s = init ++ [p] ∧ splitSlashes (s ++ t) = init ++ [p ++ t] := by
  induction s with
  | nil => exact ⟨[], [], rfl, splitSlashes_of_notMem ht⟩
  | cons c s ih =>
    obtain ⟨init, p, hs, hst⟩ := ih
    by_cases hc : c = '/'
    · subst hc
      exact ⟨[] :: init, p, congrArg ([] :: ·) hs, congrArg ([] :: ·) hst⟩
    · rw [List.cons_append, splitSlashes_cons_of_ne hc, splitSlashes_cons_of_ne hc, hs, hst]
      rcases init with _ | ⟨q, init⟩
      · exact ⟨[], c :: p, rfl, rfl⟩
      · exact ⟨(c :: q) :: init, p, rfl, rfl⟩

/-- The components of a text are those before its last slash and all that stands behind it. -/
lemma parts_ofString_append (s : List Char) (ht : '/' ∉ t) (hlength : 1 < t.length) :
    ∃ init x, splitSlashes s = init ++ [x] ∧ (ofString (String.ofList (s ++ t))).parts =
      ((init.map String.ofList).filter fun p => p ≠ "" ∧ p ≠ ".") ++ [String.ofList (x ++ t)] := by
  obtain ⟨init, x, hsplit, hsplit'⟩ := splitSlashes_append s ht
  have hkept (u : String) (hu : u.toList.length ≤ 1) : String.ofList (x ++ t) ≠ u := by
    rintro rfl
    rw [String.toList_ofList, List.length_append] at hu
    omega
  refine ⟨init, x, hsplit, ?_⟩
  rw [ofString, String.toList_ofList, hsplit', List.map_append, List.filter_append,
    List.map_singleton, List.filter_cons_of_pos, List.filter_nil]
  simpa only [decide_eq_true_eq] using ⟨hkept "" (by decide), hkept "." (by decide)⟩

/-- A path below another ends as its text does, up to the last slash. -/
lemma parts_below (p : Path) (s : List Char) (ht : '/' ∉ t) (hlength : 1 < t.length) :
    ∃ init x, (p.below (String.ofList (s ++ t))).parts = init ++ [String.ofList (x ++ t)] := by
  obtain ⟨_, x, -, hparts⟩ := parts_ofString_append s ht hlength
  rw [below, join]
  split
  · exact ⟨_, x, hparts⟩
  · exact ⟨_, x, by rw [hparts, ← List.append_assoc]⟩

lemma below_plain (p : Path) (h : Plain s) :
    p.below (String.ofList s) = p.child (String.ofList s) := by
  have hroot : rootOf s = .relative := by
    obtain ⟨hs, c, r, rfl, -⟩ := h
    simp only [List.mem_cons, not_or] at hs
    rw [rootOf, List.takeWhile_cons_of_neg (by simpa using Ne.symm hs.1)]
    rfl
  have hsplit := splitSlashes_of_notMem h.1
  have hne := h.ofList_ne (u := "") (.inl rfl)
  have hdot := h.ofList_ne (u := ".") (.inr rfl)
  simp [below, join, ofString, hroot, hsplit, isAbsolute, hne, hdot, child]

lemma foldl_below_plain (p : Path) (h : ∀ s ∈ names, Plain s) :
    names.foldl (fun p s => p.below (String.ofList s)) p =
      ⟨p.root, p.parts ++ names.map String.ofList⟩ := by
  induction names generalizing p with
  | nil => simp
  | cons s names ih =>
    rw [List.foldl_cons, below_plain p (h s (by simp)), ih _ fun s hs => h s (by simp [hs])]
    simp [child]

end Path

namespace Text

variable {s : List Char}

lemma isLabelChar_ne {c : Char} (h : isLabelChar c) : c ≠ '/' ∧ c ≠ '.' := by
  constructor <;> rintro rfl <;> exact absurd h (by decide)

lemma chomp_cases (s : List Char) : s = chomp s ∨ s = chomp s ++ ['\n'] := by
  rw [chomp]
  split
  · next h => exact .inr (List.dropLast_append_getLast? _ h).symm
  · exact .inl rfl

lemma isLabelChar_of_mem_label (h : isLabel s) {c : Char} (hc : c ∈ s) : isLabelChar c := by
  cases s with
  | nil => cases hc
  | cons d s =>
    simp only [isLabel, Bool.and_eq_true, List.all_eq_true] at h
    rcases List.mem_cons.mp hc with rfl | hc
    · simp [isLabelChar, h.1]
    · exact h.2 c hc

lemma notMem_of_isIdentifier (h : isIdentifier s) {c : Char} (hc : ¬isLabelChar c)
    (hn : c ≠ '\n') : c ∉ s := by
  have hchomp : c ∉ chomp s := fun hm => hc (isLabelChar_of_mem_label h hm)
  rcases chomp_cases s with hs | hs <;> rw [hs]
  · exact hchomp
  · simp [hchomp, hn]

lemma plain_of_isIdentifier (h : isIdentifier s) : Path.Plain s := by
  have hslash : '/' ∉ chomp s := fun hm => (isLabelChar_ne (isLabelChar_of_mem_label h hm)).1 rfl
  have hplain : Path.Plain (chomp s) := by
    refine ⟨hslash, ?_⟩
    rw [isIdentifier] at h
    rcases hs : chomp s with _ | ⟨c, r⟩
    · simp [hs, isLabel] at h
    · exact ⟨c, r, rfl, (isLabelChar_ne (isLabelChar_of_mem_label h (by simp [hs]))).2⟩
  rcases chomp_cases s with hs | hs
  · rwa [hs]
  · rw [hs]
    exact hplain.append (by decide)

end Text

namespace Settings

variable {c c' : Settings} {fields : List (String × Raw)}

/-! ### Accepted settings -/

/-- Settings that were made from raw values and then changed, each time with success. -/
inductive Accepted : Settings → Prop
  | made {fields : List (String × Raw)} {c : Settings} : ofRaw fields = .ok c → Accepted c
  | assigned {c c' : Settings} {field : Setting} {r : Raw} :
      Accepted c → c.assign field r = .ok c' → Accepted c'

/-- What the checks see to. -/
structure Checked (c : Settings) : Prop where
  model : Text.isIdentifier c.model.toList
  suffix : c.suffix.toList.all isSuffixChar
  segments : ∀ s ∈ segments c.namespaceName.toList, Text.isIdentifier s

lemma isIdentifier_of_checkModel {s m : String} (h : checkModel s = .ok m) :
    Text.isIdentifier m.toList := by
  rw [checkModel] at h
  split at h
  · next hi =>
    obtain rfl := Except.ok.inj h
    simpa using hi
  · cases h

lemma all_of_checkSuffix {s m : String} (h : checkSuffix s = .ok m) :
    m.toList.all isSuffixChar := by
  rw [checkSuffix] at h
  split at h
  · next hi =>
    obtain rfl := Except.ok.inj h
    simpa using hi
  · cases h

/-- A suffix that fits a class name goes as it is. -/
lemma assign_suffix {c : Settings} {x : String} (htrim : Text.trim x.toList = x.toList)
    (hall : x.toList.all isSuffixChar = true) :
    c.assign .suffix (.text x) = .ok { c with suffix := x } := by
  have hcheck : checkSuffix x = .ok x := by
    simp only [checkSuffix, htrim, hall, if_true, String.ofList_toList]
  calc
    c.assign .suffix (.text x) = (do return { c with suffix := ← checkSuffix x }) := rfl
    _ = .ok { c with suffix := x } := by rw [hcheck]; rfl

lemma segments_map_backslash (s : List Char) :
    segments (s.map fun c => if c == '/' then '\\' else c) = segments s := by
  induction s with
  | nil => rfl
  | cons c s ih =>
    rw [List.map_cons, segments, segments, ih]
    by_cases hc : c = '/'
    · subst hc
      rfl
    · simp only [beq_iff_eq, if_neg hc]

/-- The text between the white space and slashes at the ends of a namespace. -/
def bareNamespace (s : List Char) : List Char :=
  Text.dropTail isSlash ((Text.trim s).dropWhile isSlash)

/-- A namespace is accepted for its segments, and stored without its ends. -/
lemma checkNamespace_eq_ok_iff {s n : String} : checkNamespace s = .ok n ↔
    (∀ p ∈ segments (bareNamespace s.toList), Text.isIdentifier p) ∧
      n.toList = (bareNamespace s.toList).map fun c => if c == '/' then '\\' else c := by
  rw [checkNamespace, ← bareNamespace]
  constructor
  · intro h
    split at h
    · cases h
    · split at h
      · cases h
      · next hnone =>
        obtain rfl := Except.ok.inj h
        exact ⟨by simpa using List.find?_eq_none.mp hnone, String.toList_ofList⟩
  · rintro ⟨hsegments, hn⟩
    have hne : (bareNamespace s.toList).isEmpty = false := by
      rw [List.isEmpty_eq_false_iff]
      intro hnil
      rw [hnil] at hsegments
      exact absurd (hsegments [] (by simp [segments])) (by decide)
    have hnone : (segments (bareNamespace s.toList)).find? (!Text.isIdentifier ·) = none := by
      simpa [List.find?_eq_none] using hsegments
    simp only [hne, hnone, ← hn]
    simp

lemma isIdentifier_of_checkNamespace {s n : String} (h : checkNamespace s = .ok n) :
    ∀ p ∈ segments n.toList, Text.isIdentifier p := by
  obtain ⟨hsegments, hn⟩ := checkNamespace_eq_ok_iff.mp h
  rwa [hn, segments_map_backslash]

/-- A field that is put keeps the checks. For the model the one before need not have passed. -/
lemma checked_assign {field : Setting} {r : Raw} (h : c.assign field r = .ok c')
    (hm : field ≠ .model → Text.isIdentifier c.model.toList)
    (hs : c.suffix.toList.all isSuffixChar)
    (hn : ∀ s ∈ segments c.namespaceName.toList, Text.isIdentifier s) : c'.Checked := by
  cases field with
  | model =>
    obtain ⟨s, -, h⟩ := exists_of_bind_eq_ok h
    obtain ⟨m, hc, h⟩ := exists_of_bind_eq_ok h
    obtain rfl := Except.ok.inj h
    exact ⟨isIdentifier_of_checkModel hc, hs, hn⟩
  | namespaceName =>
    obtain ⟨s, -, h⟩ := exists_of_bind_eq_ok h
    obtain ⟨n, hc, h⟩ := exists_of_bind_eq_ok h
    obtain rfl := Except.ok.inj h
    exact ⟨hm (by simp), hs, isIdentifier_of_checkNamespace hc⟩
  | suffix =>
    obtain ⟨s, -, h⟩ := exists_of_bind_eq_ok h
    obtain ⟨m, hc, h⟩ := exists_of_bind_eq_ok h
    obtain rfl := Except.ok.inj h
    exact ⟨hm (by simp), all_of_checkSuffix hc, hn⟩
  | resource | force | dryRun | projectPath | databaseUrl | table =>
    obtain ⟨b, -, h⟩ := exists_of_bind_eq_ok h
    obtain rfl := Except.ok.inj h
    exact ⟨hm (by simp), hs, hn⟩

lemma Checked.assign (hc : c.Checked) {field : Setting} {r : Raw} (h : c.assign field r = .ok c') :
    c'.Checked :=
  checked_assign h (fun _ => hc.model) hc.suffix hc.segments

/-- While no field was refused the settings pass the checks, from the model on. -/
lemma checked_take_model (fields : List (String × Raw)) :
    (take fields (initial, []) .model).2 = [] →
      (take fields (initial, []) .model).1.Checked := by
  rw [take]
  rcases fields.lookup Setting.model.key with _ | r
  · simp
  · dsimp only
    rcases ha : initial.assign .model r with e | c
    · simp
    · exact fun _ => checked_assign ha (absurd rfl) (by decide) (by decide)

lemma checked_take {s : Settings × List FieldIssue} (hs : s.2 = [] → s.1.Checked)
    (field : Setting) : (take fields s field).2 = [] → (take fields s field).1.Checked := by
  rw [take]
  rcases fields.lookup field.key with _ | r
  · dsimp only
    split
    · simp
    · exact hs
  · dsimp only
    rcases ha : s.1.assign field r with e | c
    · simp
    · exact fun h => (hs h).assign ha

lemma checked_ofRaw (h : ofRaw fields = .ok c) : c.Checked := by
  have hfold (l : List Setting) (s : Settings × List FieldIssue) (hs : s.2 = [] → s.1.Checked) :
      (l.foldl (take fields) s).2 = [] → (l.foldl (take fields) s).1.Checked := by
    induction l generalizing s with
    | nil => exact hs
    | cons field l ih => exact ih _ (checked_take hs field)
  have hall := hfold Setting.all.tail _ (checked_take_model fields)
  rw [ofRaw] at h
  dsimp only at h
  split at h
  · next hnil =>
    obtain rfl := Except.ok.inj h
    exact hall (List.append_eq_nil_iff.mp hnil).1
  · cases h

lemma Accepted.checked (h : c.Accepted) : c.Checked := by
  induction h with
  | made h => exact checked_ofRaw h
  | assigned _ h ih => exact ih.assign h

/-! ### The paths -/

def outputNames (c : Settings) : List String :=
  appDirectory :: (segments c.namespaceName.toList).map String.ofList

def outputName (c : Settings) : String := c.className ++ ".php"

def sourceNames (c : Settings) : List String := [appDirectory, "Models", c.model ++ ".php"]

lemma below_app (p : Path) : p.below appDirectory = p.child appDirectory :=
  Path.below_plain (s := ['a', 'p', 'p']) p ⟨by decide, _, _, rfl, by decide⟩

lemma segments_ne_nil (s : List Char) : segments s ≠ [] := by
  cases s with
  | nil => simp [segments]
  | cons c s =>
    rw [segments]
    split
    · simp
    · split <;> simp

lemma eq_of_segments {s p : List Char} (h : segments s = [p]) : s = p := by
  induction s generalizing p with
  | nil => simpa [segments] using h
  | cons c s ih =>
    rw [segments] at h
    split at h
    · simp [segments_ne_nil] at h
    · rcases hs : segments s with _ | ⟨p', ps⟩
      · exact absurd hs (segments_ne_nil s)
      · simp only [hs, List.cons.injEq] at h
        obtain ⟨rfl, rfl⟩ := h
        rw [ih hs]

/-- The names are those of the model if the class has the model's name in the namespace of
models. -/
lemma outputNames_concat_eq_iff (c : Settings) : c.outputNames ++ [c.outputName] = c.sourceNames ↔
    c.namespaceName = "Models" ∧ c.suffix = "" := by
  rw [outputNames, sourceNames, List.cons_append, List.cons.injEq, eq_self, true_and]
  constructor
  · intro h
    obtain ⟨hnames, hname⟩ :=
      List.append_inj' (h.trans (List.singleton_append (x := "Models")).symm) rfl
    obtain ⟨p, hsegments, hp⟩ := List.map_eq_singleton_iff.mp hnames
    have hsuffix := congrArg String.toList (List.singleton_inj.mp hname)
    simp only [outputName, className, String.toList_append, List.append_assoc,
      List.append_cancel_left_eq, List.append_left_eq_self, String.toList_eq_nil_iff] at hsuffix
    refine ⟨?_, hsuffix⟩
    rw [← hp, ← eq_of_segments hsegments, String.ofList_toList]
  · rintro ⟨hn, hs⟩
    rw [outputName, className, hn, hs, String.append_empty]
    rfl

namespace Checked

lemma plain_model (h : c.Checked) {s : List Char} (hs : '/' ∉ s) :
    Path.Plain (c.model.toList ++ s) :=
  (Text.plain_of_isIdentifier h.model).append hs

lemma notMem_suffix (h : c.Checked) : '/' ∉ c.suffix.toList := by
  intro hm
  exact absurd (List.all_eq_true.mp h.suffix _ hm) (by decide)

lemma plain_outputName (h : c.Checked) : Path.Plain c.outputName.toList := by
  have := h.plain_model (s := c.suffix.toList ++ ".php".toList) (by
    simp only [List.mem_append, not_or]
    exact ⟨h.notMem_suffix, by decide⟩)
  simpa [outputName, className] using this

lemma sourcePath_eq (h : c.Checked) :
    c.sourcePath = ⟨c.projectPath.root, c.projectPath.parts ++ c.sourceNames⟩ := by
  have hm := Path.below_plain ((c.projectPath.child appDirectory).child "Models")
    (h.plain_model (s := ".php".toList) (by decide))
  have hmodels := Path.below_plain (s := "Models".toList) (c.projectPath.child appDirectory)
    ⟨by decide, _, _, rfl, by decide⟩
  rw [String.ofList_toList] at hmodels
  rw [sourcePath, below_app, hmodels]
  rw [String.ofList_append, String.ofList_toList, String.ofList_toList] at hm
  rw [hm]
  simp [Path.child, sourceNames]

lemma outputDirectory_eq (h : c.Checked) :
    c.outputDirectory = ⟨c.projectPath.root, c.projectPath.parts ++ c.outputNames⟩ := by
  rw [outputDirectory, below_app,
    Path.foldl_below_plain _ fun s hs => Text.plain_of_isIdentifier (h.segments s hs)]
  simp [Path.child, outputNames]

lemma outputPath_eq (h : c.Checked) : c.outputPath = c.outputDirectory.child c.outputName := by
  have := Path.below_plain c.outputDirectory h.plain_outputName
  rwa [String.ofList_toList] at this

lemma outputPath_eq_append (h : c.Checked) :
    c.outputPath =
      ⟨c.projectPath.root, c.projectPath.parts ++ (c.outputNames ++ [c.outputName])⟩ := by
  rw [h.outputPath_eq, h.outputDirectory_eq, Path.child, List.append_assoc]

lemma null_notMem (h : c.Checked) : ∀ x ∈ c.outputNames ++ [c.outputName], '\x00' ∉ x.toList := by
  have hidentifier {s : List Char} (hs : Text.isIdentifier s) : '\x00' ∉ s :=
    Text.notMem_of_isIdentifier hs (by decide) (by decide)
  have hsuffix : '\x00' ∉ c.suffix.toList := fun hm =>
    absurd (List.all_eq_true.mp h.suffix _ hm) (by decide)
  intro x hx
  rw [outputNames, List.cons_append, List.mem_cons, List.mem_append, List.mem_singleton] at hx
  rcases hx with rfl | hx | rfl
  · decide
  · obtain ⟨s, hs, rfl⟩ := List.mem_map.mp hx
    rw [String.toList_ofList]
    exact hidentifier (h.segments s hs)
  · rw [outputName, className]
    simp only [String.toList_append, List.mem_append, not_or]
    exact ⟨⟨hidentifier h.model, hsuffix⟩, by decide⟩

/-- The output goes to the model's place if the names that lead there are the same. -/
lemma outputPath_eq_sourcePath_iff (h : c.Checked) :
    c.outputPath = c.sourcePath ↔ c.outputNames ++ [c.outputName] = c.sourceNames := by
  rw [h.outputPath_eq_append, h.sourcePath_eq, Path.mk.injEq, List.append_cancel_left_eq]
  simp

lemma outputNames_plain (h : c.Checked) : ".." ∉ c.outputNames := by
  rw [outputNames, List.mem_cons, not_or]
  refine ⟨by decide, fun hm => ?_⟩
  obtain ⟨s, hs, he⟩ := List.mem_map.mp hm
  exact (Text.plain_of_isIdentifier (h.segments s hs)).ofList_ne (.inr rfl) he

lemma outputName_ne (h : c.Checked) : c.outputName ≠ ".." := by
  rw [← String.ofList_toList (s := c.outputName)]
  exact h.plain_outputName.ofList_ne (.inr rfl)

lemma sourceNames_plain (h : c.Checked) : ".." ∉ c.sourceNames := by
  have hm := (h.plain_model (s := ".php".toList) (by decide)).ofList_ne (u := "..") (.inr rfl)
  rw [String.ofList_append, String.ofList_toList, String.ofList_toList] at hm
  simp only [sourceNames, List.mem_cons, List.not_mem_nil, or_false, not_or]
  exact ⟨by decide, by decide, Ne.symm hm⟩

end Checked

end Settings

end EloquentEntity

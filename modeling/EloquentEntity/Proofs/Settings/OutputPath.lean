import EloquentEntity.Proofs.Files.Places
import EloquentEntity.Proofs.Settings.Assignment

/-!
Where the generated class goes.

The stored namespace holds no slash, so its segments are what stands between its backslashes. Each
is one component of the output path, and can be read off it again: two outputs of one project are
the same file only if namespace and class name are the same.
-/

namespace EloquentEntity

namespace Settings

variable {c : Settings} {s : List Char}

/-! ### The stored namespace -/

/-- Where there is no other slash, segments are what stands between backslashes. -/
lemma segments_eq_splitOn (h : '/' ∉ s) : segments s = s.splitOn '\\' := by
  induction s with
  | nil => rfl
  | cons c s ih =>
    simp only [List.mem_cons, not_or] at h
    have ih := ih h.2
    rw [List.splitOn_eq_splitOnP] at ih ⊢
    rw [List.splitOnP_cons_eq_if_modifyHead, segments, ih]
    have hslash : isSlash c = (c == '\\') := by
      simp [isSlash, Ne.symm h.1]
    rw [hslash]
    split
    · rfl
    · rcases hs : s.splitOnP (· == '\\') with _ | ⟨p, ps⟩
      · exact absurd hs (List.splitOnP_ne_nil _ _)
      · rfl

lemma splitOn_injective {s t : List Char} (h : s.splitOn '\\' = t.splitOn '\\') : s = t :=
  calc
    s = ['\\'].intercalate (s.splitOn '\\') := (List.intercalate_splitOn '\\').symm
    _ = ['\\'].intercalate (t.splitOn '\\') := by rw [h]
    _ = t := List.intercalate_splitOn '\\'

lemma notMem_of_checkNamespace {s n : String} (h : checkNamespace s = .ok n) :
    '/' ∉ n.toList := by
  rw [(checkNamespace_eq_ok_iff.mp h).2, List.mem_map]
  rintro ⟨c, -, hc⟩
  split at hc
  · exact absurd hc (by decide)
  · next hne => simp [hc] at hne

lemma Accepted.notMem_namespaceName (h : c.Accepted) : '/' ∉ c.namespaceName.toList := by
  obtain ⟨d, hd, hc⟩ := h.exists_checked .namespaceName
  rw [← hc]
  change '/' ∉ d.namespaceName.toList
  obtain ⟨-, rfl⟩ | ⟨r, hr⟩ := hd
  · decide
  · obtain ⟨s, -, hr⟩ := exists_of_bind_eq_ok hr
    obtain ⟨n, hn, hr⟩ := exists_of_bind_eq_ok hr
    obtain rfl := Except.ok.inj hr
    exact notMem_of_checkNamespace hn

/-! ### The output path -/

/-- What the output path has after the project's path: the directory of the application, the
segments of the namespace, and the class's file. -/
def addedParts (c : Settings) : List String :=
  appDirectory :: (c.namespaceName.toList.splitOn '\\').map String.ofList ++ [c.className ++ ".php"]

lemma Accepted.addedParts_eq (h : c.Accepted) : c.addedParts = c.outputNames ++ [c.outputName] := by
  rw [addedParts, outputNames, outputName, segments_eq_splitOn h.notMem_namespaceName]

lemma Checked.plain_of_mem (h : c.Checked) {part : String}
    (hp : part ∈ c.outputNames ++ [c.outputName]) : Path.Plain part.toList := by
  rw [outputNames, List.cons_append, List.mem_cons, List.mem_append, List.mem_singleton] at hp
  rcases hp with rfl | hp | rfl
  · exact ⟨by decide, _, _, rfl, by decide⟩
  · obtain ⟨s, hs, rfl⟩ := List.mem_map.mp hp
    rw [String.toList_ofList]
    exact Text.plain_of_isIdentifier (h.segments s hs)
  · exact h.plain_outputName

/-- Components that do not lead upwards stay below what the rest of the path stands for. -/
lemma resolve_append (here p : Path) {added : List String} (h : ".." ∉ added) :
    Path.resolve here ⟨p.root, p.parts ++ added⟩ =
      ⟨(Path.resolve here p).root, (Path.resolve here p).parts ++ added⟩ := by
  have hjoin : here.join ⟨p.root, p.parts ++ added⟩ =
      ⟨(here.join p).root, (here.join p).parts ++ added⟩ := by
    by_cases hp : p.root = .relative <;> simp [Path.join, Path.isAbsolute, hp]
  rw [Path.resolve, Path.resolve, hjoin]
  dsimp only
  rw [FileTree.collapse_append, FileTree.collapse_plain _ h]

/-- **The class goes below the application's directory, to one place for each namespace and name.**
The components after the project's path are that directory, one for each segment of the namespace,
and the class's file. All of them are names in their own right, so that the output lies below the
directory of the application, from wherever a relative path is read. Two outputs of one project go
to the same place exactly if the namespaces are the same and the classes have the same name. -/
theorem outputPath_located (h : c.Accepted) :
    c.outputPath = ⟨c.projectPath.root, c.projectPath.parts ++ c.addedParts⟩ ∧
      (∀ part ∈ c.addedParts, part ∉ ["", ".", ".."] ∧ '/' ∉ part.toList) ∧
      (∀ here, ∃ added ≠ [], Path.resolve here c.outputPath =
        ⟨(Path.resolve here (c.projectPath.below appDirectory)).root,
          (Path.resolve here (c.projectPath.below appDirectory)).parts ++ added⟩) ∧
      ∀ d : Settings, d.Accepted → d.projectPath = c.projectPath →
        (d.outputPath = c.outputPath ↔
          d.namespaceName = c.namespaceName ∧ d.className = c.className) := by
  have houtput {c : Settings} (h : c.Accepted) :
      c.outputPath = ⟨c.projectPath.root, c.projectPath.parts ++ c.addedParts⟩ := by
    rw [h.checked.outputPath_eq_append, h.addedParts_eq]
  have hplain : ∀ part ∈ c.addedParts, Path.Plain part.toList := by
    rw [h.addedParts_eq]
    exact fun part => h.checked.plain_of_mem
  refine ⟨houtput h, fun part hp => ⟨?_, (hplain part hp).1⟩, fun here => ?_, fun d hd hproject => ?_⟩
  · have hne {u : String} (hu : u = "" ∨ u.toList.head? = some '.') : part ≠ u := by
      rw [← String.ofList_toList (s := part)]
      exact (hplain part hp).ofList_ne hu
    simp only [List.mem_cons, List.not_mem_nil, or_false, not_or]
    exact ⟨hne (.inl rfl), hne (.inr rfl), hne (.inr rfl)⟩
  · refine ⟨c.addedParts.tail, by simp [addedParts], ?_⟩
    have hup : ".." ∉ c.addedParts.tail := fun hm =>
      absurd (hplain ".." (List.mem_of_mem_tail hm)) (by
        rintro ⟨-, d, r, hd, hne⟩
        exact hne (List.cons.inj hd).1.symm)
    rw [houtput h, below_app, ← resolve_append here _ hup]
    simp [Path.child, addedParts]
  · rw [houtput h, houtput hd, hproject, Path.mk.injEq, eq_self, true_and,
      List.append_cancel_left_eq, addedParts, addedParts]
    -- Equal paths have equal segments, and the class names before the suffix are equal.
    constructor
    · intro heq
      obtain ⟨hnames, hname⟩ := List.append_inj' heq rfl
      have hsegments := List.map_injective_iff.mpr (fun _ _ => String.ofList_injective)
        (List.cons.inj hnames).2
      have hname := congrArg String.toList (List.singleton_inj.mp hname)
      rw [String.toList_append, String.toList_append, List.append_cancel_right_eq] at hname
      exact ⟨String.toList_injective (splitOn_injective hsegments),
        String.toList_injective hname⟩
    · rintro ⟨hn, hc⟩
      rw [hn, hc]

/-- A namespace of two segments, given with a slash. Whether the output may be replaced does not
change its place. -/
theorem outputPath_located_nested :
    let c : Settings := { initial with model := "User", namespaceName := "Domain\\Users" }
    ofRaw [("model", .text "User"), ("namespace", .text " Domain/Users\\ ")] = .ok c ∧
      c.outputPath = ⟨.relative, ["app", "Domain", "Users", "UserEntity.php"]⟩ ∧
      ({ c with force := true } : Settings).outputPath = c.outputPath := by
  intro c
  have hmade : ofRaw [("model", .text "User"), ("namespace", .text " Domain/Users\\ ")] = .ok c := by
    decide +kernel
  have hc : c.Accepted := .made hmade
  have hforce : c.assign .force (.bool true) = .ok { c with force := true } := rfl
  obtain ⟨hpath, -, -, hsame⟩ := outputPath_located hc
  refine ⟨hmade, ?_, (hsame _ (hc.assigned hforce) rfl).mpr ⟨rfl, rfl⟩⟩
  rw [hpath]
  decide +kernel

end Settings

end EloquentEntity

import EloquentEntity.Proofs.Casts.Resolver
import EloquentEntity.Proofs.Files.Places
import EloquentEntity.Proofs.Settings

/-!
Where the sources of cast classes are looked for.

The name of a class becomes a path below the application's directory, one component for each
segment. A name that a cast gives as a text may be more than that: a segment `..` leads upwards
again, and what starts with a slash is a path of its own. All other names lead to places below the
directory, and then no file outside of it has a say in the answer.
-/

namespace EloquentEntity

namespace Path

/-- A path that goes on from another one through names, at least one and none of them `..`. -/
def Below (p base : Path) : Prop :=
  p.root = base.root ∧ ∃ names, names ≠ [] ∧ ".." ∉ names ∧ p.parts = base.parts ++ names

variable {s : List Char}

lemma rootOf_eq_relative_iff : rootOf s = .relative ↔ s.head? ≠ some '/' := by
  cases s with
  | nil => simp [rootOf]
  | cons c s =>
    by_cases hc : c = '/'
    · subst hc
      rw [rootOf, List.takeWhile_cons_of_pos rfl, List.length_cons]
      split <;> simp_all
    · rw [rootOf, List.takeWhile_cons_of_neg (by simpa using hc)]
      simpa using hc

end Path

namespace Casts

open Settings

variable {files files' : FileTree} {root p : Path} {name : String} {rest : List Char}

/-! ### From a name to a path -/

/-- What follows the application's namespace in a class's name, if it starts with it. -/
def relativeName? (name : String) : Option (List Char) :=
  let front := (appNamespace ++ "\\").toList
  let bare := (ClassName.bare name).toList
  if front.isPrefixOf bare then some (bare.drop front.length) else none

def slashed (s : List Char) : List Char := s.map fun c => if c == '\\' then '/' else c

lemma sourcePath?_eq (root : Path) (name : String) :
    sourcePath? root name = (relativeName? name).map fun rest =>
      (root.child appDirectory).below (String.ofList (slashed rest ++ ".php".toList)) := by
  rw [sourcePath?, relativeName?]
  dsimp only
  split
  · rw [below_app, Option.map_some, String.ofList_append, String.ofList_toList]
    rfl
  · rfl

lemma splitSlashes_slashed (s : List Char) : Path.splitSlashes (slashed s) = segments s := by
  induction s with
  | nil => rfl
  | cons c s ih =>
    rw [segments, ← ih, slashed, List.map_cons, ← slashed]
    by_cases hc : isSlash c
    · have hslash : (if c == '\\' then '/' else c) = '/' := by
        rcases Bool.or_eq_true_iff.mp hc with hc | hc <;> simp_all
      rw [if_pos hc, hslash, Path.splitSlashes]
    · have hne : c ≠ '\\' ∧ c ≠ '/' := by simpa [isSlash] using hc
      have hkeep : (if c == '\\' then '/' else c) = c := by simp [hne.1]
      rw [if_neg hc, hkeep]
      exact Path.splitSlashes_cons_of_ne hne.2 _

lemma head?_slashed (s : List Char) :
    (slashed s).head? = some '/' ↔ s.head?.any isSlash = true := by
  cases s with
  | nil => simp [slashed]
  | cons c s =>
    by_cases hc : c = '\\'
    · simp [slashed, isSlash, hc]
    · simp [slashed, isSlash, hc]

/-- A class's name that does not lead out of the application's directory: what follows the namespace
starts with no slash of either kind, and of its segments only the last, which an extension is put
to, may be `..`. -/
def Confined (name : String) : Prop :=
  ∀ rest ∈ relativeName? name,
    rest.head?.any isSlash = false ∧ ['.', '.'] ∉ (segments rest).dropLast

instance (name : String) : Decidable (Confined name) :=
  inferInstanceAs (Decidable (∀ rest ∈ relativeName? name, _))

lemma mem_map_ofList_iff {names : List (List Char)} {s : List Char} :
    String.ofList s ∈ names.map String.ofList ↔ s ∈ names :=
  List.mem_map_of_injective fun _ _ h => String.ofList_injective h

/-- The components for a name, and whether they replace the path that they are put to. -/
lemma ofString_slashed (rest : List Char) :
    ∃ init x, segments rest = init ++ [x] ∧
      (Path.ofString (String.ofList (slashed rest ++ ".php".toList))).parts =
        ((init.map String.ofList).filter fun p => p ≠ "" ∧ p ≠ ".") ++
          [String.ofList (x ++ ".php".toList)] ∧
      (Path.ofString (String.ofList (slashed rest ++ ".php".toList))).isAbsolute =
        rest.head?.any isSlash := by
  obtain ⟨init, x, hsplit, hparts⟩ :=
    Path.parts_ofString_append (t := ".php".toList) (slashed rest) (by decide) (by decide)
  refine ⟨init, x, by rw [← splitSlashes_slashed, hsplit], hparts, ?_⟩
  have hhead : (slashed rest ++ ".php".toList).head? = some '/' ↔
      (slashed rest).head? = some '/' := by
    rw [List.head?_append]
    rcases (slashed rest).head? with _ | c <;> simp
  rw [Path.isAbsolute, Path.ofString, String.toList_ofList, Bool.eq_iff_iff, bne_iff_ne,
    ← head?_slashed, ← hhead, ne_eq, Path.rootOf_eq_relative_iff, not_not]

/-- A class whose name does not lead out is looked for below the application's directory. -/
lemma Confined.below (h : Confined name) (hp : sourcePath? root name = some p) :
    p.Below (root.child appDirectory) := by
  rw [sourcePath?_eq] at hp
  obtain ⟨rest, hrest, rfl⟩ := Option.map_eq_some_iff.mp hp
  obtain ⟨hhead, hnames⟩ := h rest hrest
  obtain ⟨init, x, hsegments, hparts, habsolute⟩ := ofString_slashed rest
  rw [hsegments, List.dropLast_concat] at hnames
  rw [Path.below, Path.join, habsolute, hhead, if_neg (by simp), hparts]
  refine ⟨rfl, _, by simp, ?_, rfl⟩
  simp only [List.mem_append, List.mem_singleton, not_or]
  refine ⟨fun hm => hnames ?_, fun he => ?_⟩
  · exact mem_map_ofList_iff.mp (List.mem_filter.mp hm).1
  · have hlength := congrArg (fun s => s.toList.length) he
    have hphp : ".php".toList.length = 4 := rfl
    have hdots : "..".toList.length = 2 := rfl
    simp only [String.toList_ofList, List.length_append] at hlength
    omega

/-- Names that lead out do so in every project whose path is relative. -/
lemma confined_of_below (h : ∀ p, sourcePath? ⟨.relative, []⟩ name = some p →
    p.Below (Path.child ⟨.relative, []⟩ appDirectory)) : Confined name := by
  intro rest hrest
  obtain ⟨init, x, hsegments, hparts, habsolute⟩ := ofString_slashed rest
  obtain ⟨hroot, names, -, hnames, hp⟩ := h _ (by
    rw [sourcePath?_eq, hrest]
    rfl)
  simp only [Path.below, Path.join] at hroot hp
  rcases ha : (Path.ofString (String.ofList (slashed rest ++ ".php".toList))).isAbsolute
  · refine ⟨habsolute.symm.trans ha, ?_⟩
    rw [ha, if_neg (by simp), hparts] at hp
    obtain rfl := List.append_cancel_left hp
    rw [hsegments, List.dropLast_concat]
    intro hm
    refine hnames (List.mem_append_left _ (List.mem_filter.mpr ⟨?_, by decide⟩))
    exact mem_map_ofList_iff.mpr hm
  · rw [ha, if_pos rfl] at hroot
    rw [Path.isAbsolute, hroot] at ha
    cases ha

/-! ### What a call looks at -/

/-- A call finds out about the classes on the chain of its name and about no others. -/
lemma resolveFrom_congr {look look' : String → Finding × List LogEntry}
    (h : ∀ m, Visits (fun n => (look n).1) name m → look' m = look m) (fuel : Nat)
    (active : List String) (known : OrderedMap String (Option String)) :
    Resolver.resolveFrom look' fuel active known name =
      Resolver.resolveFrom look fuel active known name := by
  induction fuel generalizing name active known with
  | zero => rfl
  | succ fuel ih =>
    simp only [Resolver.resolveFrom, h _ (.here name)]
    rcases hl : look (ClassName.bare name) with ⟨t | e | target, log⟩
    · rfl
    · rfl
    · dsimp only
      rw [ih fun m hm => h m (.later (by rw [hl]) hm)]

/-- The same can be read below a directory. -/
def SameBelow (base : Path) (files files' : FileTree) : Prop :=
  ∀ p : Path, p.Below base → files'.isFile p = files.isFile p ∧ files'.read p = files.read p

/-- What is read below a directory is what stands there. -/
lemma SameBelow.of_node? {base : Path} {q : List String} (h : files.place base = .ok q)
    (h' : files'.place base = .ok q) (hq : files.node? q = some .directory)
    (hn : ∀ r, q <+: r → files'.node? r = files.node? r) : SameBelow base files files' := by
  rintro ⟨_, _⟩ ⟨rfl, names, hne, hnames, rfl⟩
  have hq' : files'.node? q = some .directory := (hn q (List.prefix_refl _)).trans hq
  have hend : ∀ r, files.walk q names = .ok r → files'.node? r = files.node? r := by
    intro r hr
    obtain rfl := FileTree.walk_eq_collapse hr
    rw [FileTree.collapse_plain q hnames]
    exact hn _ (List.prefix_append ..)
  have hplace : files'.place ⟨base.root, base.parts ++ names⟩ =
        files.place ⟨base.root, base.parts ++ names⟩ ∧
      ∀ r, files.place ⟨base.root, base.parts ++ names⟩ = .ok r →
        files'.node? r = files.node? r := by
    rcases hcheck : FileTree.checkPath ⟨base.root, base.parts ++ names⟩ with f | _
    · simp [FileTree.place, hcheck]
    · have hwalk : files.place ⟨base.root, base.parts ++ names⟩ = files.walk q names :=
        (FileTree.place_of_checkPath hcheck).trans
          (FileTree.walk_append (FileTree.walk_of_place h) hq hne)
      have hwalk' : files'.place ⟨base.root, base.parts ++ names⟩ = files.walk q names :=
        ((FileTree.place_of_checkPath hcheck).trans
          (FileTree.walk_append (FileTree.walk_of_place h') hq' hne)).trans
          (FileTree.walk_congr hn hnames)
      rw [hwalk, hwalk']
      exact ⟨rfl, hend⟩
  obtain ⟨hplace, hend⟩ := hplace
  rw [FileTree.isFile, FileTree.isFile, FileTree.find?, FileTree.find?, FileTree.read, FileTree.read,
    FileTree.bytes, FileTree.bytes, hplace]
  rcases hr : files.place ⟨base.root, base.parts ++ names⟩ with f | r
  · cases f <;> exact ⟨rfl, rfl⟩
  · dsimp only
    rw [hend r hr]
    exact ⟨rfl, rfl⟩

lemma SameBelow.examine_eq (h : SameBelow (root.child appDirectory) files files')
    (hc : Confined name) : examine files' root name = examine files root name := by
  rw [examine, examine]
  rcases hp : sourcePath? root name with _ | p
  · rfl
  · obtain ⟨hfile, hread⟩ := h p (hc.below hp)
    dsimp only
    rw [examineFile, examineFile, hfile, hread]

/-- **Confined names are read about in the application's directory only.** These are the names
whose sources are looked for below that directory, in whatever project. Where all names on a chain
are such, files elsewhere make no difference to the answer. -/
theorem resolve_of_confined (name : String) :
    ((∀ root p, sourcePath? root name = some p → p.Below (root.child appDirectory)) ↔
        Confined name) ∧
      ∀ files files' root, (∀ m, Visits (findings files root) name m → Confined m) →
        SameBelow (root.child appDirectory) files files' →
        (∀ fuel active known, Resolver.resolveFrom (examine files' root) fuel active known name =
            Resolver.resolveFrom (examine files root) fuel active known name) ∧
          Resolver.fresh files' root name = Resolver.fresh files root name := by
  refine ⟨⟨fun h => confined_of_below fun p hp => h _ p hp, fun h _ _ hp => h.below hp⟩, ?_⟩
  intro files files' root hchain hsame
  have hlook (m : String) (hm : Visits (findings files root) name m) :
      examine files' root m = examine files root m := hsame.examine_eq (hchain m hm)
  exact ⟨resolveFrom_congr hlook,
    Resolver.fresh_congr fun m hm => congrArg Prod.fst (hlook m hm)⟩

/-! ### A small project -/

def castNode : FileNode :=
  .file (Text.Utf8.encode
    "<?php class A implements \\Illuminate\\Contracts\\Database\\Eloquent\\CastsAttributes \x7b function get(): int \x7b\x7d \x7d".toList)

lemma findingAt_castNode : findingAt (some castNode) = .type (some "int") := by decide +kernel

lemma findings_of_castNode {q : List String} (hplace : sourcePlace? files root name = some q)
    (hn : files.node? q = some castNode) : findings files root name = .type (some "int") := by
  rw [findings_eq (not_refused_of_sourcePlace? hplace), hplace, Option.bind_some, hn,
    findingAt_castNode]

lemma fresh_of_castNode {q : List String}
    (hplace : sourcePlace? files root (ClassName.bare name) = some q)
    (hn : files.node? q = some castNode) : Resolver.fresh files root name = .ok (some "int") :=
  Resolver.fresh_iff.mpr (.ends (Set.notMem_empty _)
    (by rw [findings_of_castNode hplace hn]; rfl))

def castFiles (directory : String) : FileTree :=
  FileTree.set ⟨[], OrderedMap.ofList [(["app"], .directory), (["secret"], .directory)]⟩
    [directory, "A.php"] castNode

lemma sameBelow_castFiles (directory : String) : SameBelow (Path.child ⟨.relative, []⟩ appDirectory)
    (castFiles directory) ((castFiles directory).set ["secret", "A.php"] (.file [])) := by
  have happ : (castFiles directory).node? ["app"] = some .directory := by
    rw [castFiles, FileTree.node?_set (by simp), if_neg (by simp)]
    rfl
  refine .of_node? (q := ["app"]) rfl rfl happ fun r hr => ?_
  rw [FileTree.node?_set (by simp), if_neg]
  rintro rfl
  exact absurd hr (by decide)

/-- A file outside of the application's directory has no say in the type of a cast. -/
theorem resolve_of_confined_cast :
    Resolver.fresh ((castFiles "app").set ["secret", "A.php"] (.file [])) ⟨.relative, []⟩
        "\\App\\A" = Resolver.fresh (castFiles "app") ⟨.relative, []⟩ "\\App\\A" := by
  have hplace : sourcePlace? (castFiles "app") ⟨.relative, []⟩ (ClassName.bare "\\App\\A") =
      some ["app", "A.php"] := by decide +kernel
  have hfinding := findings_of_castNode hplace rfl
  have hchain (m : String)
      (hm : Visits (findings (castFiles "app") ⟨.relative, []⟩) "\\App\\A" m) : Confined m := by
    cases hm with
    | here => decide +kernel
    | later hl => exact absurd (hfinding.symm.trans hl) (by simp)
  exact ((resolve_of_confined "\\App\\A").2 _ _ _ hchain (sameBelow_castFiles "app")).2

/-- A segment `..` leads out of the application's directory, to a file that gives the type. -/
theorem sourcePath?_leads_out :
    (∃ p, sourcePath? ⟨.relative, []⟩ "\\App\\..\\secret\\A" = some p ∧
        ¬p.Below (Path.child ⟨.relative, []⟩ appDirectory)) ∧
      ∃ files files', SameBelow (Path.child ⟨.relative, []⟩ appDirectory) files files' ∧
        Resolver.fresh files ⟨.relative, []⟩ "\\App\\..\\secret\\A" = .ok (some "int") ∧
        Resolver.fresh files' ⟨.relative, []⟩ "\\App\\..\\secret\\A" = .ok none := by
  constructor
  · refine ⟨⟨.relative, ["app", "..", "secret", "A.php"]⟩, rfl, ?_⟩
    rintro ⟨-, names, -, hnames, he⟩
    have hnames' : ["..", "secret", "A.php"] = names := List.tail_eq_of_cons_eq he
    exact hnames (hnames' ▸ by decide)
  · refine ⟨castFiles "secret", _, sameBelow_castFiles "secret", ?_, ?_⟩
    · have hplace : sourcePlace? (castFiles "secret") ⟨.relative, []⟩
          (ClassName.bare "\\App\\..\\secret\\A") = some ["secret", "A.php"] := by decide +kernel
      exact fresh_of_castNode hplace rfl
    · refine Resolver.fresh_iff.mpr (.ends (Set.notMem_empty _) ?_)
      decide +kernel

end Casts

end EloquentEntity

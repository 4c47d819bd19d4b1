import EloquentEntity.Generate.Pipeline
import EloquentEntity.Proofs.Casts.Chain
import EloquentEntity.Proofs.Files.Places
import EloquentEntity.Proofs.Settings

/-!
The resolver of cast classes, whose memory never changes an answer.

Every answer in its memory is the type of the class's chain. That is kept by each call, also by
the calls inside a call: those end a cycle without a type, and a class in whose chain there is a
cycle has none. A call fails, and its chain has no type to remember, where the chain meets a class
whose source has a name that the system does not answer for.
-/

namespace EloquentEntity.Casts

open ClassName Syntax

variable {files : FileTree} {root : Path} {name : String} {t : Option String} {o : Outcome}
  {e : FileError}

/-! ### One class -/

def sourcePlace? (files : FileTree) (root : Path) (name : String) : Option (List String) :=
  (sourcePath? root name).bind files.place?

/-- The system does not answer for the source of a class. -/
def Refused (files : FileTree) (root : Path) (name : String) : Prop :=
  ∃ p, sourcePath? root name = some p ∧ files.Refuses p

instance (files : FileTree) (root : Path) (name : String) : Decidable (Refused files root name) :=
  inferInstanceAs (Decidable (∃ p ∈ sourcePath? root name, files.Refuses p))

def findingAt (node : Option FileNode) : Finding :=
  match node.bind FileNode.text? with
  | none => .type none
  | some source =>
    match parse source with
    | none => .type none
    | some root =>
      match root.firstClass? with
      | none => .type none
      | some declaration => (findingOf "" declaration (Imports.collect root)).1

lemma findingAt_eq {node : FileNode} {source : String} {root declaration : Tree}
    (hsource : node.text? = some source) (hroot : parse source = some root)
    (hfirst : root.firstClass? = some declaration) :
    findingAt (some node) = (findingOf "" declaration (Imports.collect root)).1 := by
  simp only [findingAt, Option.bind_some, hsource, hroot, hfirst]

abbrev findings (files : FileTree) (root : Path) (name : String) : Finding :=
  (examine files root name).1

lemma fst_findingOf (name name' : String) (declaration : Tree) (imports : Imports) :
    (findingOf name declaration imports).1 = (findingOf name' declaration imports).1 := by
  simp only [findingOf]
  by_cases ha : (interfaces declaration imports).contains attributesInterface
  · simp only [ha, if_true]
    cases declaration.method? "get" <;> rfl
  · by_cases hc : (interfaces declaration imports).contains castableInterface
    · simp only [ha, hc, if_true]
      cases castUsing? declaration imports <;> rfl
    · simp only [ha, hc]
      rfl

lemma fst_examineFile {path : Path} (h : ¬files.Refuses path) (name : String) :
    (examineFile files name path).1 = findingAt ((files.place? path).bind files.node?) := by
  have hread := files.toOption_read path
  rw [examineFile, files.isFile_of_not_refuses h, files.at?_eq, findingAt, ← hread]
  rcases hn : (files.place? path).bind files.node? with _ | node
  · rw [hread, hn]
    rfl
  · by_cases hfile : node.isFile
    · rw [Option.any_some, hfile]
      dsimp only
      rcases files.read path with e | source
      · rfl
      · simp only [Except.toOption]
        rcases parse source with _ | tree
        · rfl
        · dsimp only
          rcases tree.firstClass? with _ | declaration
          · rfl
          · exact fst_findingOf ..
    · cases node
      · rw [hread, hn]
        rfl
      all_goals exact absurd rfl hfile

/-- A class says what stands in its file, and nothing where it has none. -/
lemma findings_eq (h : ¬Refused files root name) :
    findings files root name = findingAt ((sourcePlace? files root name).bind files.node?) := by
  rw [findings, examine, sourcePlace?]
  rcases hp : sourcePath? root name with _ | path
  · rfl
  · exact fst_examineFile (fun hr => h ⟨path, hp, hr⟩) name

lemma findings_of_refused (h : Refused files root name) :
    ∃ p, sourcePath? root name = some p ∧
      findings files root name = .error ⟨.nameTooLong, p.quoted⟩ := by
  obtain ⟨p, hp, hr⟩ := h
  refine ⟨p, hp, ?_⟩
  have hexamine : (examineFile files name p).1 = .error ⟨.nameTooLong, p.quoted⟩ := by
    rw [examineFile, files.isFile_of_refuses hr]
    rfl
  rw [findings, examine, hp]
  exact hexamine

lemma findingOf_ne_error (declaration : Tree) (imports : Imports) :
    (findingOf name declaration imports).1 ≠ .error e := by
  simp only [findingOf]
  split_ifs
  · cases declaration.method? "get" <;> exact nofun
  · cases castUsing? declaration imports <;> exact nofun
  · exact nofun

lemma findingAt_ne_error (node : Option FileNode) : findingAt node ≠ .error e := by
  rw [findingAt]
  split
  · exact nofun
  · split
    · exact nofun
    · split
      · exact nofun
      · exact findingOf_ne_error _ _

lemma findings_eq_error_iff : findings files root name = .error e ↔
    ∃ p, sourcePath? root name = some p ∧ files.Refuses p ∧ e = ⟨.nameTooLong, p.quoted⟩ := by
  constructor
  · intro he
    by_cases h : Refused files root name
    · obtain ⟨p, hp, hf⟩ := findings_of_refused h
      obtain ⟨p', hp', hr⟩ := h
      obtain rfl := Option.some.inj (hp'.symm.trans hp)
      exact ⟨p', hp', hr, Finding.error.inj (he.symm.trans hf)⟩
    · rw [findings_eq h] at he
      exact absurd he (findingAt_ne_error _)
  · rintro ⟨p, hp, hr, rfl⟩
    obtain ⟨p', hp', hf⟩ := findings_of_refused ⟨p, hp, hr⟩
    obtain rfl := Option.some.inj (hp'.symm.trans hp)
    exact hf

/-- Where a class has its source there is an answer. -/
lemma not_refused_of_sourcePlace? {q : List String} (h : sourcePlace? files root name = some q) :
    ¬Refused files root name := by
  rintro ⟨p, hp, hr⟩
  rw [sourcePlace?, hp, Option.bind_some, FileTree.place?, hr] at h
  cases h

lemma readFrom_findings (files : FileTree) (root : Path) :
    ReadFrom (findings files root) (sourcePlace? files root) files.filePlaces where
  file_of_follow := by
    intro n target h
    have hr : ¬Refused files root n := by
      intro hr
      obtain ⟨p, -, he⟩ := findings_of_refused hr
      exact absurd (he.symm.trans h) nofun
    rw [findings_eq hr, findingAt] at h
    rcases hq : sourcePlace? files root n with _ | q
    · simp [hq] at h
    · rcases hn : files.node? q with _ | node
      · simp [hq, hn] at h
      · refine ⟨q, files.mem_filePlaces hn ?_, rfl⟩
        cases node
        · simp [hq, hn, FileNode.text?] at h
        all_goals rfl
  look_eq := by
    intro n n' q h h'
    rw [findings_eq (not_refused_of_sourcePlace? h), findings_eq (not_refused_of_sourcePlace? h'),
      h, h']

/-- A class on the chain of a name has a source that the system does not answer for. -/
def Blocked (files : FileTree) (root : Path) (name : String) : Prop :=
  ∃ m, Visits (findings files root) name m ∧ Refused files root m

lemma exists_chain_error_iff :
    (∃ e, Chain (findings files root) ∅ name (.error e)) ↔ Blocked files root name := by
  simp only [chain_error_iff, findings_eq_error_iff]
  constructor
  · rintro ⟨-, m, hm, p, hp, hr, -⟩
    exact ⟨m, hm, p, hp, hr⟩
  · rintro ⟨m, hm, p, hp, hr⟩
    exact ⟨_, m, hm, p, hp, hr, rfl⟩

/-! ### The memory -/

/-- Every answer that is known is the type of the class's chain. -/
def Known (look : String → Finding) (known : OrderedMap String (Option String)) : Prop :=
  ∀ n t, known.get? n = some t → Chain look ∅ n (.ok t)

lemma known_empty (look : String → Finding) : Known look ∅ := by
  intro n t h
  rw [OrderedMap.get?_empty] at h
  cases h

lemma Known.put {look : String → Finding} {known : OrderedMap String (Option String)}
    (hk : Known look known) (hc : Chain look ∅ name (.ok t)) :
    Known look (known.put (bare name) t) := by
  intro n u h
  rw [OrderedMap.get?_put] at h
  split at h
  · next he =>
    obtain rfl := Option.some.inj h
    exact he ▸ chain_bare.mpr hc
  · exact hk n u h

namespace Resolver

section

variable {F : Type} {examine : String → Finding × List LogEntry} {fileOf : String → Option F}
  {sources : List F}

/-- One call, while the classes of a trail are being resolved: it comes to what the chain does, and
every answer known afterwards is the type of a chain. -/
lemma resolveFrom_spec (hr : ReadFrom (fun n => (examine n).1) fileOf sources) {fuel : Nat}
    {active : List String} {known : OrderedMap String (Option String)} {name : String}
    (hk : Known (fun n => (examine n).1) known) (ht : Trail (fun n => (examine n).1) active name)
    (hfuel : sources.length + 2 ≤ fuel + active.length) :
    Chain (fun n => (examine n).1) ∅ name (resolveFrom examine fuel active known name).outcome ∧
      Known (fun n => (examine n).1) (resolveFrom examine fuel active known name).known := by
  induction fuel generalizing active known name with
  | zero =>
    have := ht.length_le_succ hr
    omega
  | succ fuel ih =>
    rw [resolveFrom]
    rcases hg : known.get? (bare name) with _ | t
    · by_cases ha : bare name ∈ active
      · -- A cycle: without a type, but this is not remembered here.
        have hc : Chain (fun n => (examine n).1) ∅ name (.ok none) :=
          ht.chain_iff.mp (.again ha)
        simpa [hg, ha] using And.intro hc hk
      · rcases hl : (examine (bare name)).1 with t | e | target
        · have hc : Chain (fun n => (examine n).1) ∅ name (.ok t) :=
            .ends (Set.notMem_empty _) (congrArg Finding.outcome? hl)
          simpa [hg, ha, hl, Answer.remember] using And.intro hc (hk.put hc)
        · have hc : Chain (fun n => (examine n).1) ∅ name (.error e) :=
            .ends (Set.notMem_empty _) (congrArg Finding.outcome? hl)
          simpa [hg, ha, hl, Answer.remember] using And.intro hc hk
        · obtain ⟨hc, hk'⟩ := ih hk (ht.step ha hl) (by simp; omega)
          have hc' := ((chain_follow_iff hl).mpr hc : Chain (fun n => (examine n).1) ∅ name _)
          rcases ho : (resolveFrom examine fuel (bare name :: active) known target).outcome with
            e | t
          · rw [ho] at hc'
            simpa [hg, ha, hl, Answer.remember, ho] using And.intro hc' hk'
          · rw [ho] at hc'
            simpa [hg, ha, hl, Answer.remember, ho] using And.intro hc' (hk'.put hc')
    · simpa [hg] using And.intro (chain_bare.mp (hk _ _ hg)) hk

end

/-- A resolver for these files whose memory holds true answers only. -/
def Sound (files : FileTree) (r : Resolver) : Prop := Known (findings files r.root) r.known

lemma sound_new (files : FileTree) (root : Path) : (new root).Sound files := known_empty _

/-- A call comes to what the chain does, and the resolver stays sound. -/
lemma Sound.resolve {r : Resolver} (h : r.Sound files) (name : String) :
    Chain (findings files r.root) ∅ name (r.resolve files name).1 ∧
      (r.resolve files name).2.1.Sound files :=
  resolveFrom_spec (readFrom_findings files r.root) h (.start name)
    (by have := files.length_filePlaces_le; simp [chainLimit]; omega)

lemma Sound.resolve_iff {r : Resolver} (h : r.Sound files) :
    (r.resolve files name).1 = o ↔ Chain (findings files r.root) ∅ name o :=
  ⟨fun he => he ▸ (h.resolve name).1, fun hc => (h.resolve name).1.unique hc⟩

/-- What a resolver answers that has not been asked before. -/
def fresh (files : FileTree) (root : Path) (name : String) : Outcome :=
  ((new root).resolve files name).1

lemma fresh_iff : fresh files root name = o ↔ Chain (findings files root) ∅ name o :=
  (sound_new files root).resolve_iff

lemma exists_fresh_eq_ok_iff :
    (∃ t, fresh files root name = .ok t) ↔ ¬Blocked files root name := by
  rw [← exists_chain_error_iff]
  simp only [← fresh_iff]
  cases fresh files root name <;> simp

lemma Sound.resolve_eq_fresh {r : Resolver} (h : r.Sound files) (name : String) :
    (r.resolve files name).1 = fresh files r.root name :=
  h.resolve_iff.mpr (fresh_iff.mp rfl)

/-- Where the same is found out about the classes of a chain, the answer is the same. -/
lemma fresh_congr {files' : FileTree} (h : ∀ m, Visits (findings files root) name m →
    findings files' root m = findings files root m) :
    fresh files' root name = fresh files root name :=
  fresh_iff.mpr ((fresh_iff.mp rfl).congr h)

def after (files : FileTree) (root : Path) (names : List String) : Resolver :=
  names.foldl (fun r n => (r.resolve files n).2.1) (new root)

lemma root_after (files : FileTree) (root : Path) (names : List String) :
    (after files root names).root = root := by
  have (r : Resolver) : (names.foldl (fun r n => (r.resolve files n).2.1) r).root = r.root := by
    induction names generalizing r with
    | nil => rfl
    | cons n names ih => rw [List.foldl_cons, ih]; rfl
  exact this _

lemma sound_after (files : FileTree) (root : Path) (names : List String) :
    (after files root names).Sound files := by
  have (r : Resolver) (h : r.Sound files) :
      (names.foldl (fun r n => (r.resolve files n).2.1) r).Sound files := by
    induction names generalizing r with
    | nil => exact h
    | cons n names ih => exact ih _ (h.resolve n).2
  exact this _ (sound_new files root)

end Resolver

/-! ### The types of columns -/

open Generate

section MapM

variable {σ ε α β : Type}

lemma run_bind (p : ExceptT ε (StateM σ) α) (f : α → ExceptT ε (StateM σ) β) (s : σ) :
    (p >>= f).run.run s =
      match p.run.run s with
      | (.ok a, s) => (f a).run.run s
      | (.error e, s) => (.error e, s) := by
  rw [ExceptT.run_bind, StateT.run_bind]
  rcases p.run.run s with ⟨e | a, s⟩ <;> rfl

/-- An action on each item of a list, where an invariant of the state decides the results. -/
lemma run_mapM (P : σ → Prop) {f : α → ExceptT ε (StateM σ) β} {g : α → Except ε β}
    (hf : ∀ s a, P s → ((f a).run.run s).1 = g a ∧ P ((f a).run.run s).2) (l : List α) {s : σ}
    (hs : P s) : ((l.mapM f).run.run s).1 = l.mapM g := by
  induction l generalizing s with
  | nil => rfl
  | cons a l ih =>
    obtain ⟨ha, hs'⟩ := hf s a hs
    rw [List.mapM_cons, List.mapM_cons, ← ha, run_bind]
    generalize (f a).run.run s = r at hs' ⊢
    rcases r with ⟨e | b, s⟩
    · rfl
    · rw [← ih hs']
      dsimp only
      rw [run_bind]
      rcases (l.mapM f).run.run s with ⟨e | bs, s⟩ <;> rfl

variable {f : α → Except ε β} {l : List α}

lemma mapM_eq_ok {g : α → β} (h : ∀ a ∈ l, f a = .ok (g a)) : l.mapM f = .ok (l.map g) := by
  induction l with
  | nil => rfl
  | cons a l ih =>
    rw [List.forall_mem_cons] at h
    rw [List.mapM_cons, h.1, ih h.2]
    rfl

lemma exists_of_mapM_eq_error {e : ε} (h : l.mapM f = .error e) : ∃ a ∈ l, f a = .error e := by
  induction l with
  | nil => cases h
  | cons a l ih =>
    rw [List.mapM_cons] at h
    rcases ha : f a with e' | b
    · rw [ha] at h
      cases h
      exact ⟨a, List.mem_cons_self, ha⟩
    · rcases hl : l.mapM f with e' | bs
      · rw [ha, hl] at h
        cases h
        obtain ⟨a', ha', he⟩ := ih hl
        exact ⟨a', List.mem_cons_of_mem _ ha', he⟩
      · rw [ha, hl] at h
        cases h

lemma exists_of_mapM_eq_ok {bs : List β} (h : l.mapM f = .ok bs) :
    ∀ a ∈ l, ∃ b, f a = .ok b := by
  induction l generalizing bs with
  | nil => exact List.forall_mem_nil _
  | cons a l ih =>
    rw [List.mapM_cons] at h
    rcases ha : f a with e | b
    · rw [ha] at h
      cases h
    · rcases hl : l.mapM f with e | bs'
      · rw [ha, hl] at h
        cases h
      · exact List.forall_mem_cons.mpr ⟨⟨b, ha⟩, ih hl⟩

end MapM

/-- What comes of a descriptor where classes are answered for by `lookup`. -/
abbrev typeBy (lookup : String → Outcome) (descriptor : String) : Except FileError String :=
  typeOf (m := Except FileError) lookup (some descriptor)

section TypeBy

variable {lookup lookup' : String → Outcome} {descriptor type : String} {casts : CastMap}
  {types : ColumnTypes}

lemma typeBy_of_class (h : descriptor.toList.head? = some '\\') :
    typeBy lookup descriptor =
      (lookup descriptor).map fun t => (t.filter (· ≠ "")).getD stringType := by
  rw [typeBy, typeOf, if_pos h]
  cases lookup descriptor <;> rfl

lemma typeBy_of_keyword (h : descriptor.toList.head? ≠ some '\\') :
    typeBy lookup descriptor = .ok (keywordType descriptor) := by
  rw [typeBy, typeOf, if_neg h]
  rfl

lemma typeBy_congr
    (h : descriptor.toList.head? = some '\\' → lookup' descriptor = lookup descriptor) :
    typeBy lookup' descriptor = typeBy lookup descriptor := by
  by_cases hd : descriptor.toList.head? = some '\\'
  · rw [typeBy_of_class hd, typeBy_of_class hd, h hd]
  · rw [typeBy_of_keyword hd, typeBy_of_keyword hd]

lemma columnTypes_eq (lookup : String → Outcome) (casts : CastMap) :
    columnTypes (m := Except FileError) lookup casts =
      (casts.entries.mapM fun e => (typeBy lookup e.2).map (e.1, ·)).map OrderedMap.ofList := by
  have hentry : (fun e : String × String => (do
      return (e.1, ← typeOf lookup e.2) : Except FileError (String × String))) =
        fun e => (typeBy lookup e.2).map (e.1, ·) := by
    funext e
    rw [typeBy]
    cases typeOf lookup (some e.2) <;> rfl
  rw [columnTypes, hentry]
  cases casts.entries.mapM fun e => (typeBy lookup e.2).map (e.1, ·) <;> rfl

lemma columnTypes_eq_ok {g : String → String}
    (h : ∀ e ∈ casts.entries, typeBy lookup e.2 = .ok (g e.2)) :
    columnTypes (m := Except FileError) lookup casts = .ok (casts.mapValues g) := by
  have hentry (e : String × String) (he : e ∈ casts.entries) :
      (typeBy lookup e.2).map (e.1, ·) = .ok (e.1, g e.2) := by
    rw [h e he]
    rfl
  rw [columnTypes_eq, mapM_eq_ok hentry, ← OrderedMap.ofList_map_entries]
  rfl

/-- All columns with a cast have types where every descriptor has one, and only there. -/
lemma columnTypes_eq_ok_iff : columnTypes (m := Except FileError) lookup casts = .ok types ↔
    ∃ g : String → String, (∀ e ∈ casts.entries, typeBy lookup e.2 = .ok (g e.2)) ∧
      types = casts.mapValues g := by
  constructor
  · intro h
    rw [columnTypes_eq] at h
    rcases hm : casts.entries.mapM fun e => (typeBy lookup e.2).map (e.1, ·) with e | es
    · rw [hm] at h
      cases h
    · let g (descriptor : String) := (typeBy lookup descriptor).toOption.getD ""
      have hg : ∀ e ∈ casts.entries, typeBy lookup e.2 = .ok (g e.2) := by
        intro e he
        obtain ⟨b, hb⟩ := exists_of_mapM_eq_ok hm e he
        rcases ht : typeBy lookup e.2 with e' | t
        · rw [ht] at hb
          cases hb
        · simp [g, ht, Except.toOption]
      have htypes := columnTypes_eq_ok hg
      rw [columnTypes_eq, h] at htypes
      exact ⟨g, hg, Except.ok.inj htypes⟩
  · rintro ⟨g, hg, rfl⟩
    exact columnTypes_eq_ok hg

lemma exists_of_columnTypes_eq_error
    (h : columnTypes (m := Except FileError) lookup casts = .error e) :
    ∃ entry ∈ casts.entries, typeBy lookup entry.2 = .error e := by
  rw [columnTypes_eq] at h
  rcases hm : casts.entries.mapM fun e => (typeBy lookup e.2).map (e.1, ·) with e' | es
  · rw [hm] at h
    cases h
    obtain ⟨entry, hmem, he⟩ := exists_of_mapM_eq_error hm
    refine ⟨entry, hmem, ?_⟩
    cases ht : typeBy lookup entry.2 <;> simp_all [Except.map]
  · rw [hm] at h
    cases h

end TypeBy

lemma run_lookUp (files : FileTree) (name : String) (s : Resolver × List LogEntry) :
    ∃ log, (lookUp files name).run.run s =
      ((s.1.resolve files name).1, (s.1.resolve files name).2.1, log) := ⟨_, rfl⟩

/-- One descriptor: what a fresh resolver makes of it, and a sound resolver after it. -/
lemma run_typeOf {s : Resolver × List LogEntry} (h : s.1.Sound files) (descriptor : String) :
    ((typeOf (lookUp files) (some descriptor)).run.run s).1 =
        typeBy (Resolver.fresh files s.1.root) descriptor ∧
      ((typeOf (lookUp files) (some descriptor)).run.run s).2.1.Sound files ∧
      ((typeOf (lookUp files) (some descriptor)).run.run s).2.1.root = s.1.root := by
  by_cases hd : descriptor.toList.head? = some '\\'
  · obtain ⟨log, hlook⟩ := run_lookUp files descriptor s
    have hsound := (h.resolve descriptor).2
    have hroot : (s.1.resolve files descriptor).2.1.root = s.1.root := rfl
    rw [typeBy_of_class hd, ← h.resolve_eq_fresh, typeOf, if_pos hd, run_bind, hlook]
    generalize (s.1.resolve files descriptor).2.1 = r at hsound hroot ⊢
    generalize (s.1.resolve files descriptor).1 = o
    cases o <;> exact ⟨rfl, hsound, hroot⟩
  · rw [typeBy_of_keyword hd, typeOf, if_neg hd]
    exact ⟨rfl, h, rfl⟩

lemma run_entry {s : Resolver × List LogEntry} (h : s.1.Sound files) (e : String × String) :
    let run := (do return (e.1, ← typeOf (lookUp files) (some e.2)) :
      ExceptT FileError (StateM (Resolver × List LogEntry)) (String × String)).run.run s
    run.1 = (typeBy (Resolver.fresh files s.1.root) e.2).map (e.1, ·) ∧
      run.2.1.Sound files ∧ run.2.1.root = s.1.root := by
  obtain ⟨ht, hs, hr⟩ := run_typeOf h e.2
  rw [run_bind, ← ht]
  generalize (typeOf (lookUp files) (some e.2)).run.run s = p at hs hr ⊢
  rcases p with ⟨_ | _, _⟩ <;> exact ⟨rfl, hs, hr⟩

/-- The types of all columns are those that fresh resolvers give one by one. -/
lemma run_columnTypes {s : Resolver × List LogEntry} (h : s.1.Sound files) (casts : CastMap) :
    ((columnTypes (lookUp files) casts).run.run s).1 =
      columnTypes (m := Except FileError) (Resolver.fresh files s.1.root) casts := by
  have hrun := run_mapM (fun s' => s'.1.Sound files ∧ s'.1.root = s.1.root)
    (f := fun e => return (e.1, ← typeOf (lookUp files) (some e.2)))
    (g := fun e => (typeBy (Resolver.fresh files s.1.root) e.2).map (e.1, ·))
    (fun s' e ⟨h', hroot⟩ => by
      obtain ⟨ht, hs, hr⟩ := run_entry h' e
      exact ⟨hroot ▸ ht, hs, hr.trans hroot⟩)
    casts.entries ⟨h, rfl⟩
  rw [columnTypes_eq, ← hrun, columnTypes, run_bind]
  rcases StateT.run (ExceptT.run (List.mapM (m := ExceptT FileError (StateM _)) _ casts.entries)) s
    with ⟨_ | _, _⟩ <;> rfl

/-- The cast of some column names a class whose chain is blocked. -/
def Stuck (files : FileTree) (root : Path) (casts : CastMap) : Prop :=
  ∃ column descriptor, casts.get? column = some descriptor ∧
    descriptor.toList.head? = some '\\' ∧ Blocked files root descriptor

lemma exists_typeBy_fresh_iff {descriptor : String} :
    (∃ type, typeBy (Resolver.fresh files root) descriptor = .ok type) ↔
      ¬(descriptor.toList.head? = some '\\' ∧ Blocked files root descriptor) := by
  by_cases hd : descriptor.toList.head? = some '\\'
  · rw [typeBy_of_class hd, and_iff_right hd, ← Resolver.exists_fresh_eq_ok_iff]
    cases Resolver.fresh files root descriptor <;> simp [Except.map]
  · simp [typeBy_of_keyword hd, hd]

/-- All columns with a cast have types unless one is stuck. -/
lemma exists_columnTypes_fresh_iff {casts : CastMap} :
    (∃ types, columnTypes (m := Except FileError) (Resolver.fresh files root) casts = .ok types) ↔
      ¬Stuck files root casts := by
  constructor
  · rintro ⟨types, htypes⟩ ⟨column, descriptor, hcast, hstuck⟩
    obtain ⟨g, hg, -⟩ := columnTypes_eq_ok_iff.mp htypes
    exact exists_typeBy_fresh_iff.mp ⟨_, hg _ (OrderedMap.get?_eq_some_iff.mp hcast)⟩ hstuck
  · intro h
    rcases htypes : columnTypes (m := Except FileError) (Resolver.fresh files root) casts with e | types
    · obtain ⟨⟨column, descriptor⟩, hentry, he⟩ := exists_of_columnTypes_eq_error htypes
      refine absurd ⟨column, descriptor, OrderedMap.get?_eq_some_iff.mpr hentry, ?_⟩ h
      by_contra hn
      obtain ⟨type, htype⟩ := exists_typeBy_fresh_iff.mpr hn
      cases he.symm.trans htype
    · exact ⟨types, rfl⟩

/-- What the step of a run that finds types comes to. -/
lemma fst_resolveTypes (c : Settings) (casts : CastMap) (s : Session) :
    ((resolveTypes c casts).on s).1 =
      (columnTypes (m := Except FileError) (Resolver.fresh s.files c.projectPath) casts).mapError
        fun e => .fault (.unreadable (.file e)) := by
  have hrun := run_columnTypes (s := (.new c.projectPath, []))
    (Resolver.sound_new s.files c.projectPath) casts
  rw [resolveTypes, Procedure.on_bind, Procedure.on_files]
  dsimp only
  rw [Procedure.on_bind, Procedure.on_noteAll]
  dsimp only
  rw [answered, Procedure.on_mapError, Procedure.on_ofExcept]
  exact congrArg (Except.mapError _) hrun

/-! ### Names that are too long -/

/-- A class directly below the application's namespace has its source directly below the
application's directory. -/
lemma sourcePath?_app {x : String} (hslash : '\\' ∉ x.toList) (hplain : Path.Plain x.toList) :
    sourcePath? root ("\\App\\" ++ x) =
      some ((root.child Settings.appDirectory).child (x ++ ".php")) := by
  have hname : (bare ("\\App\\" ++ x)).toList = "App\\".toList ++ x.toList := by
    rw [bare, String.toList_ofList, String.toList_append]
    rfl
  have hbelow : (x.toList.map fun c => if c == '\\' then '/' else c) = x.toList := by
    conv_rhs => rw [← List.map_id x.toList]
    refine List.map_congr_left fun c hc => if_neg ?_
    rw [beq_iff_eq]
    exact fun he => hslash (he ▸ hc)
  have hphp : Path.Plain (x.toList ++ ".php".toList) := by
    obtain ⟨hx, c, r, hr, hc⟩ := hplain
    refine ⟨?_, c, r ++ ".php".toList, by rw [hr]; rfl, hc⟩
    rw [List.mem_append, not_or]
    exact ⟨hx, by decide⟩
  have hpath := Path.below_plain (root.child Settings.appDirectory) hphp
  rw [String.ofList_append, String.ofList_toList, String.ofList_toList] at hpath
  simp only [sourcePath?, hname, Settings.appNamespace]
  rw [if_pos (by simp), Settings.below_app]
  change some ((root.child Settings.appDirectory).below
    (String.ofList (x.toList.map fun c => if c == '\\' then '/' else c) ++ ".php")) = _
  rw [hbelow, String.ofList_toList, hpath]

/-- A class whose name is too long for a file is refused where the application's directory is. -/
lemma refused_of_long {x : String} {q : List String}
    (happ : files.place (root.child Settings.appDirectory) = .ok q)
    (hq : files.node? q = some .directory) (hslash : '\\' ∉ x.toList)
    (hplain : Path.Plain x.toList) (hnull : '\x00' ∉ x.toList)
    (hlong : FileTree.nameLimit < x.utf8ByteSize + 4) : Refused files root ("\\App\\" ++ x) := by
  refine ⟨_, sourcePath?_app hslash hplain, FileTree.refuses_child happ hq ?_ ?_ ?_⟩
  · intro he
    have hphp := congrArg (fun s => s.toList.length) he
    simp at hphp
  · rw [String.toList_append, List.mem_append, not_or]
    exact ⟨hnull, by decide⟩
  · rw [String.utf8ByteSize_append]
    exact hlong

lemma refused_bare : Refused files root (bare name) ↔ Refused files root name := by
  rw [Refused, Refused, sourcePath?, sourcePath?, bare_bare]

lemma blocked_of_refused (h : Refused files root name) : Blocked files root name :=
  ⟨bare name, .here name, refused_bare.mpr h⟩

def longLetters : List Char := List.replicate 252 'A'

def longName : String := String.ofList longLetters

lemma refused_longName {q : List String}
    (happ : files.place (root.child Settings.appDirectory) = .ok q)
    (hq : files.node? q = some .directory) : Refused files root ("\\App\\" ++ longName) := by
  have hletters : longName.toList = longLetters := String.toList_ofList
  have hmem {c : Char} (hc : c ≠ 'A') : c ∉ longName.toList := by
    rw [hletters, longLetters, List.mem_replicate]
    exact fun h => hc h.2
  exact refused_of_long happ hq (hmem (by decide))
    ⟨hmem (by decide), 'A', _, hletters, by decide⟩ (hmem (by decide)) (by decide +kernel)

/-- The source of a class that leaves the matter to the class with that name. -/
def delegatingSource : List Char :=
  "<?php class A implements \\Illuminate\\Contracts\\Database\\Eloquent\\Castable \x7b static function castUsing() \x7b return new \\App\\".toList ++
    longLetters ++ "; \x7d \x7d".toList

def delegatingNode : FileNode := .file (Text.Utf8.encode delegatingSource)

lemma text?_delegatingNode : delegatingNode.text? = some (String.ofList delegatingSource) := by
  have hdecode : Text.Utf8.decode (Text.Utf8.encode delegatingSource) = .ok delegatingSource := by
    decide +kernel
  have hlines : Text.universalNewlines delegatingSource = delegatingSource := by decide +kernel
  rw [delegatingNode, FileNode.text?, hdecode]
  simp only [Except.toOption, Option.map_some, hlines]

lemma parse_delegatingSource : ∃ root ∈ parse (String.ofList delegatingSource),
    ∃ d ∈ root.firstClass?, Imports.collect root = ∅ ∧ interfaces d ∅ = [castableInterface] ∧
      ∃ m ∈ (d.method? "castUsing").filter Tree.isStatic, ∃ t ∈ m.firstReturn?,
        t.is .objectCreation = true ∧ ∃ n ∈ t.nodes.head?.filter isPlainName,
          Text.withoutBlanks n.text = "\\App\\".toList ++ longLetters := by
  rw [parse, tokens, String.toList_ofList]
  decide +kernel

lemma findingAt_delegatingNode :
    findingAt (some delegatingNode) = .follow ("\\App\\" ++ longName) := by
  obtain ⟨root, hroot, d, hd, himports, hinterfaces, m, hm, t, ht, hcreation, n, hn, hname⟩ :=
    parse_delegatingSource
  have htarget : ClassName.resolve n.nameText ∅ = "\\App\\" ++ longName := by
    have hbare : bare n.nameText = "App\\" ++ longName := by
      have hdrop : ("\\App\\".toList ++ longLetters).dropWhile (· == '\\') =
          "App\\".toList ++ longLetters := rfl
      rw [bare, Tree.nameText, String.toList_ofList, hname, hdrop, String.ofList_append,
        String.ofList_toList, longName]
    have happ : "\\" ++ "App\\" = "\\App\\" := rfl
    rw [ClassName.resolve, OrderedMap.get?_empty]
    dsimp only
    rw [qualify, hbare, ← String.append_assoc, happ]
  have hcast : castUsing? d ∅ = some ("\\App\\" ++ longName) := by
    rw [castUsing?, hm]
    dsimp only
    rw [ht]
    dsimp only
    rw [if_pos hcreation, hn, Option.map_some, htarget]
  have hother : ([castableInterface] : List String).contains attributesInterface = false := by
    decide +kernel
  rw [findingAt_eq text?_delegatingNode hroot hd, himports]
  simp only [findingOf, hinterfaces, hother, hcast]
  simp

lemma blocked_of_delegatingNode {q : List String}
    (hplace : sourcePlace? files root (bare name) = some q)
    (hn : files.node? q = some delegatingNode)
    (h : Refused files root ("\\App\\" ++ longName)) : Blocked files root name := by
  have hfollow : findings files root (bare name) = .follow ("\\App\\" ++ longName) := by
    rw [findings_eq (not_refused_of_sourcePlace? hplace), hplace, Option.bind_some, hn,
      findingAt_delegatingNode]
  exact ⟨_, .later hfollow (.here _), refused_bare.mpr h⟩

/-! ### Memory makes no difference -/

/-- **Answers do not depend on earlier calls.** Whatever a resolver was asked before, a call comes
to what the class's chain does: it gives the type of the chain, unless the chain meets a class whose
source the system does not answer for, when it fails. What the resolver remembers is what a fresh
one answers; the types of columns are those that fresh resolvers give; and a chain has at most one
class more than there are files. -/
theorem resolve_after (files : FileTree) (root : Path) (earlier : List String) (name : String) :
    let r := Resolver.after files root earlier
    (∀ o, (r.resolve files name).1 = o ↔ Chain (findings files root) ∅ name o) ∧
      ((∃ t, (r.resolve files name).1 = .ok t) ↔ ¬Blocked files root name) ∧
      (∀ n t, r.known.get? n = some t → ((Resolver.new root).resolve files n).1 = .ok t) ∧
      (∀ casts log, ((columnTypes (lookUp files) casts).run.run (r, log)).1 =
        columnTypes (m := Except FileError) (fun d => ((Resolver.new root).resolve files d).1)
          casts) ∧
      ∀ visited : List String, visited.Nodup →
        (∀ m ∈ visited, Visits (findings files root) name m) →
        visited.length ≤ files.filePlaces.length + 1 := by
  intro r
  have hs : r.Sound files := Resolver.sound_after files root earlier
  have hroot : r.root = root := Resolver.root_after files root earlier
  refine ⟨fun o => ?_, ?_, fun n t h => ?_, fun casts log => ?_, fun visited hnd hv => ?_⟩
  · rw [← hroot]
    exact hs.resolve_iff
  · rw [hs.resolve_eq_fresh, hroot]
    exact Resolver.exists_fresh_eq_ok_iff
  · exact Resolver.fresh_iff.mpr (hroot ▸ hs n t h)
  · rw [run_columnTypes (s := (r, log)) hs, hroot]
    rfl
  · have hc := (hroot ▸ hs.resolve name).1
    exact hc.visited_length_le (readFrom_findings files root) hnd hv

/-- A class whose name is too long for a file: it has no source, and the call fails. -/
theorem resolve_fails :
    let files : FileTree := ⟨[], OrderedMap.ofList [(["app"], .directory)]⟩
    let root : Path := ⟨.relative, []⟩
    sourcePlace? files root ("\\App\\" ++ longName) = none ∧
      ∃ e, ((Resolver.new root).resolve files ("\\App\\" ++ longName)).1 = .error e := by
  intro files root
  have happ : files.place (root.child Settings.appDirectory) = .ok ["app"] := by decide +kernel
  have hrefused := refused_longName happ (by decide +kernel)
  constructor
  · rw [Option.eq_none_iff_forall_not_mem]
    exact fun q hq => not_refused_of_sourcePlace? hq hrefused
  · obtain ⟨e, he⟩ := exists_chain_error_iff.mpr (blocked_of_refused hrefused)
    exact ⟨e, (Resolver.sound_new files root).resolve_iff.mpr he⟩

end EloquentEntity.Casts

import EloquentEntity.Imports
import EloquentEntity.Proofs.Entity.Definition
import EloquentEntity.Proofs.Entity.Legible
import EloquentEntity.Proofs.OrderedMap

/-!
What the analysis of sources finds in a generated class: its imports, its name, and the parameters
of its constructor.
-/

namespace EloquentEntity

open Syntax Syntax.Tree

/-! ### Names in the tree -/

section Names

variable {n : Segments}

lemma nameText_nameTree (hw : ∀ w ∈ n.words, IsAsciiLabel w) (g : List Char) :
    (n.nameTree g).nameText = String.ofList n.text := by
  have htext : joinTokens (n.tokens g) = n.text := by
    have hmore := Segments.writtenAll_tokens g n
    rw [Segments.tokens, writtenAll, List.flatMap_cons] at hmore
    rw [Segments.tokens, joinTokens]
    simpa [Token.written, Token.text, wordAt] using hmore
  have hblank : Text.withoutBlanks n.text = n.text := by
    refine List.filter_eq_self.mpr fun c hc => ?_
    rw [Segments.text, List.mem_append, List.mem_flatMap] at hc
    have hc : c = '\\' ∨ ∃ w ∈ n.words, c ∈ w := by
      rcases hc with hc | ⟨w, hw, hc⟩
      · exact .inr ⟨_, List.mem_cons_self, hc⟩
      · exact (List.mem_cons.mp hc).imp_right fun hc => ⟨w, List.mem_cons_of_mem _ hw, hc⟩
    rcases hc with rfl | ⟨w, hm, hc⟩
    · rfl
    · simp [(hw w hm).isBlank_eq_false hc]
  rw [nameText, Segments.nameTree, text_leaves, htext, hblank]

end Names

namespace Outline

/-! ### Parameters -/

variable {p : List Char × List Char} {ps : List (List Char × List Char)} {g : List Char}
  {n : Segments} {o : Outline}

lemma tokens_typeTree (w : List Char) : (typeTree w).tokens = [wordAt [' '] w] := by
  rw [typeTree]
  split <;> rfl

lemma sourceText_parameterTree (p : List Char × List Char) : (parameterTree p).sourceText =
    "public readonly " ++ String.ofList p.1 ++ " $" ++ String.ofList p.2 := by
  have htokens : (parameterTree p).tokens = parameterTokens p := by
    simp [parameterTree, Tree.tokens, tokensAll, tokens_typeTree, parameterTokens]
  rw [sourceText, Tree.text, htokens]
  change String.ofList ("public readonly ".toList ++ (p.1 ++ (" $".toList ++ (p.2 ++ [])))) = _
  rw [List.append_nil, String.ofList_append, String.ofList_append, String.ofList_append,
    String.ofList_toList, String.ofList_toList, String.append_assoc, String.append_assoc]

lemma parameterList_methodTree (ps : List (List Char × List Char)) :
    (methodTree ps).parameterList = ps.map parameterTree := by
  have hlist : (parameterTrees ps).filter (·.is .parameter) = ps.map parameterTree := by
    cases ps with
    | nil => rfl
    | cons p ps =>
      have hmore : (ps.flatMap fun p => [leaf (markAt [] ','), parameterTree p]).filter
          (·.is .parameter) = ps.map parameterTree := by
        rw [List.filter_flatMap, List.map_eq_flatMap]
        rfl
      rw [parameterTrees, List.filter_cons_of_pos rfl, hmore, List.map_cons]
  change (leaf (markAt [] '(') :: parameterTrees ps ++
    [leaf (markAt (closingGap ps) ')')]).filter (·.is .parameter) = _
  rw [List.cons_append, List.filter_cons_of_neg (by decide), List.filter_append, hlist]
  exact List.append_nil _

/-! ### Imports and the class -/

/-- The kinds that stand only among the statements. -/
def outer : List Kind := [.useDeclaration, .classDeclaration]

lemma free_typeTree (w : List Char) : Free outer (typeTree w) := by
  rw [typeTree]
  split
  · exact free_leaves (by decide) [_]
  · exact free_node (by decide) (List.forall_mem_singleton.mpr (free_leaves (by decide) [_]))

lemma free_parameterTree (p : List Char × List Char) : Free outer (parameterTree p) := by
  refine free_node (by decide) ?_
  simp only [List.forall_mem_cons]
  refine ⟨?_, ?_, free_typeTree _, ?_, by simp⟩ <;> exact free_leaves (by decide) [_]

lemma free_of_mem_parameterTrees {u : Tree} (hu : u ∈ parameterTrees ps) : Free outer u := by
  cases ps with
  | nil => cases hu
  | cons p ps =>
    rw [parameterTrees, List.mem_cons, List.mem_flatMap] at hu
    rcases hu with rfl | ⟨q, -, hu⟩
    · exact free_parameterTree p
    · simp only [List.mem_cons, List.not_mem_nil, or_false] at hu
      rcases hu with rfl | rfl
      · exact free_leaf _ _
      · exact free_parameterTree q

lemma free_methodTree (ps : List (List Char × List Char)) : Free outer (methodTree ps) := by
  have hparameters : Free outer (parametersTree ps) := by
    refine free_node (by decide) fun u hu => ?_
    rw [List.mem_append, List.mem_cons] at hu
    rcases hu with (rfl | hu) | hu
    · exact free_leaf _ _
    · exact free_of_mem_parameterTrees hu
    · obtain rfl := List.mem_singleton.mp hu
      exact free_leaf _ _
  refine free_node (by decide) ?_
  simp only [List.forall_mem_cons]
  refine ⟨?_, free_leaf _ _, ?_, hparameters, ?_, by simp⟩
  · exact free_leaves (by decide) [_]
  · exact free_leaves (by decide) [_]
  · exact free_leaves (by decide) [_, _]

lemma free_nameTree (g : List Char) (n : Segments) : Free outer (n.nameTree g) := by
  rw [Segments.nameTree]
  split <;> exact free_leaves (by decide) _

lemma free_children_of_mem_statements {t : Token} {s : List Token × Tree}
    (hs : s ∈ o.statements t) :
    ∀ u ∈ s.2.children, Free outer u := by
  simp only [statements, List.mem_append, List.mem_cons, List.mem_map, List.not_mem_nil,
    or_false] at hs
  have huse (g : List Char) (n : Segments) : ∀ u ∈ (useTree g n).children, Free outer u := by
    simp only [useTree, children, List.forall_mem_cons]
    exact ⟨free_leaf _ _, free_node (by decide) (by simpa using free_nameTree _ _), free_leaf _ _,
      by simp⟩
  rcases hs with (rfl | rfl | rfl | ⟨n, -, rfl⟩) | rfl
  · simp only [declareTree, children, List.forall_mem_cons]
    exact ⟨free_leaf _ _, free_leaf _ _, free_leaf _ _, free_leaf _ _, free_leaves (by decide) [_],
      free_leaf _ _, free_leaves (by decide) [_], by simp⟩
  · simp only [spaceTree, children, List.forall_mem_cons]
    exact ⟨free_leaf _ _, free_leaves (by decide) _, free_leaf _ _, by simp⟩
  · exact huse _ _
  · exact huse _ _
  · simp only [classTree, children, List.forall_mem_cons]
    refine ⟨free_leaf _ _, free_leaf _ _, free_leaves (by decide) [_], ?_, ?_, by simp⟩
    · exact free_node (by decide) (by
        simpa using ⟨free_leaf _ _, free_leaves (by decide) [_]⟩)
    · exact free_node (by decide) (by
        simpa using ⟨free_leaf _ _, free_methodTree _, free_leaf _ _⟩)

/-- What is found of a kind that stands only among the statements. -/
lemma findAll_tree {k : Kind} (hk : k ∈ outer) (t : Token) :
    (o.tree t).findAll (·.is k) = ((o.statements t).map Prod.snd).filter (·.is k) := by
  have hfree : ∀ u ∈ (o.statements t).map Prod.snd ++ [leaf stopToken],
      ∀ v ∈ u.children, Free outer v := by
    intro u hu
    rcases List.mem_append.mp hu with hu | hu
    · obtain ⟨s, hs, rfl⟩ := List.mem_map.mp hu
      exact free_children_of_mem_statements hs
    · obtain rfl := List.mem_singleton.mp hu
      simp [children]
  have hne : Kind.program ≠ k := by
    rintro rfl
    revert hk
    decide
  rw [tree, findAll_node hk hne hfree, List.filter_append]
  exact List.append_nil _

lemma trees_statements (o : Outline) (t : Token) : (o.statements t).map Prod.snd =
    declareTree t :: spaceTree o.space :: useTree ['\n', '\n'] o.firstImport ::
      (o.moreImports.map (useTree ['\n']) ++ [o.classTree]) := by
  simp [statements, Function.comp_def]

lemma findAll_imports (o : Outline) (t : Token) : (o.tree t).findAll (·.is .useDeclaration) =
    useTree ['\n', '\n'] o.firstImport :: o.moreImports.map (useTree ['\n']) := by
  have hmore : (o.moreImports.map (useTree ['\n'])).filter (·.is .useDeclaration) =
      o.moreImports.map (useTree ['\n']) :=
    List.filter_eq_self.mpr fun u hu => by
      obtain ⟨n, -, rfl⟩ := List.mem_map.mp hu
      rfl
  rw [findAll_tree (by decide), trees_statements]
  change useTree ['\n', '\n'] o.firstImport ::
    (o.moreImports.map (useTree ['\n']) ++ [o.classTree]).filter (·.is .useDeclaration) = _
  rw [List.filter_append, hmore]
  exact congrArg _ (List.append_nil _)

lemma firstClass?_tree (o : Outline) (t : Token) : (o.tree t).firstClass? = some o.classTree := by
  have hmore : (o.moreImports.map (useTree ['\n'])).filter (·.is .classDeclaration) = [] :=
    List.filter_eq_nil_iff.mpr fun u hu => by
      obtain ⟨n, -, rfl⟩ := List.mem_map.mp hu
      simp [useTree, is, kind?]
  rw [firstClass?, find?_eq_head?, findAll_tree (by decide), trees_statements]
  change ((o.moreImports.map (useTree ['\n']) ++ [o.classTree]).filter
    (·.is .classDeclaration)).head? = _
  rw [List.filter_append, hmore]
  rfl

lemma declaredName_classTree (o : Outline) : o.classTree.declaredName = String.ofList o.name := by
  change String.ofList (joinTokens [wordAt [' '] o.name]) = _
  exact congrArg _ (List.append_nil _)

lemma declarationEntries_useTree (hw : ∀ w ∈ n.words, IsAsciiLabel w) (g : List Char) :
    Imports.declarationEntries (useTree g n) =
      [(ClassName.short (String.ofList n.text), String.ofList n.text)] := by
  have hbare := Segments.bare_text fun w hm => (hw w hm).isWord
  have hne : String.ofList n.text ≠ "" := by
    intro h
    have hfirst := (hw n.first List.mem_cons_self).isWord.1
    rw [String.ofList_eq_empty_iff, Segments.text, List.append_eq_nil_iff] at h
    simp [h.1, startsWord] at hfirst
  have hname : ClassName.bare (n.nameTree [' ']).nameText = String.ofList n.text := by
    rw [nameText_nameTree hw, hbare]
  have hclause : Imports.clauseParts? (.node .useClause [n.nameTree [' ']]) =
      some (String.ofList n.text, none) := by
    have hnodes : (node .useClause [n.nameTree [' ']]).nodes = [n.nameTree [' ']] := rfl
    rw [Imports.clauseParts?, hnodes]
    simp only [hname, if_neg hne]
    rfl
  have hclauses : Imports.classClauses (useTree g n) = [(String.ofList n.text, none)] := by
    have hchildren : ((useTree g n).childrenOf .useClause).filter (!Imports.isNoClass ·) =
        [.node .useClause [n.nameTree [' ']]] := rfl
    rw [Imports.classClauses, hchildren, List.filterMap_cons_some hclause]
    rfl
  have hclass : Imports.isNoClass (useTree g n) = false := rfl
  have hgroup : (useTree g n).child? .useGroup = none := rfl
  rw [Imports.declarationEntries, hclass, hgroup, hclauses]
  rfl

end Outline

/-! ### Definitions -/

namespace EntityDefinition

/-- What the analysis of a source finds: these imports, and a class with one method. -/
structure ReadsAs (d : EntityDefinition) (root declared constructed : Tree) : Prop where
  /-- Each imported name stands under its last segment, in the order of the import lines. -/
  imports : OrderedMap.entries (Imports.collect root) =
    d.importedNames.map fun n => (ClassName.short n, n)
  importLines : d.imports = d.importedNames.map ClassName.useLine
  sorted : d.importedNames.Pairwise (· < ·)
  firstClass : root.firstClass? = some declared
  className : declared.declaredName = d.className
  methods : declared.membersOf .methodDeclaration = [constructed]
  methodName : constructed.declaredName = "__construct"
  parameters : constructed.parameterList.map sourceText =
    d.properties.map fun f => "public readonly " ++ f.writtenType ++ " $" ++ f.name
  types : ∀ f ∈ d.properties, ClassName.isClass f.type = true →
    ClassName.resolve f.writtenType (Imports.collect root) = f.type

variable {d : EntityDefinition} {first : String} {more : List String} {t : Token}

lemma entries_outline (h : d.Legible) (hi : d.importedNames = first :: more) (t : Token) :
    Imports.entries ((d.outline first more).tree t) =
      d.importedNames.map fun n => (ClassName.short n, n) := by
  have hentry (g : List Char) {name : String} (hname : name ∈ d.importedNames) :
      Imports.declarationEntries (Outline.useTree g (.ofName name.toList)) =
        [(ClassName.short name, name)] := by
    have hword := isSegment_of_mem_words (isQualifiedName_of_mem h hname)
    have hone := Outline.declarationEntries_useTree (fun w hw => (hword w hw).1) g
    rwa [ofList_text] at hone
  have hmore : (d.outline first more).moreImports.map (Outline.useTree ['\n']) =
      more.map fun n => Outline.useTree ['\n'] (.ofName n.toList) := List.map_map
  rw [Imports.entries, Outline.findAll_imports, hmore, List.flatMap_cons, List.flatMap_map, hi,
    List.map_cons, outline, hentry _ (by simp [hi]), List.map_eq_flatMap]
  refine congrArg (_ :: ·) (List.flatMap_congr fun n hn => hentry _ ?_)
  simp [hi, hn]

lemma collect_entries (h : d.Legible) (hi : d.importedNames = first :: more) (t : Token) :
    OrderedMap.entries (Imports.collect ((d.outline first more).tree t)) =
      d.importedNames.map fun n => (ClassName.short n, n) := by
  have hnodup : d.importedNames.Nodup :=
    (ClassName.pairwise_importNames _).imp fun hlt => String.ne_of_lt hlt
  rw [Imports.collect, entries_outline h hi]
  refine OrderedMap.ofList_entries ?_
  rw [List.map_map]
  exact hnodup.map_on h.imports

lemma resolve_writtenType (h : d.Legible) {imports : Imports}
    (hentries : OrderedMap.entries imports = d.importedNames.map fun n => (ClassName.short n, n))
    {f : EntityField} (hf : f ∈ d.properties) (hclass : ClassName.isClass f.type = true) :
    ClassName.resolve f.writtenType imports = f.type := by
  rcases h.types f hf with htype | ⟨name, htype, hq⟩
  · have hnone := (importName_of_builtIn htype).1
    rw [EntityField.importName, if_pos hclass] at hnone
    cases hnone
  · obtain ⟨himport, hwritten⟩ := importName_of_class htype hq
    have hne : name ≠ "" := by
      rintro rfl
      exact absurd hq (by decide)
    have hmem : name ∈ d.properties.filterMap (·.importName) :=
      List.mem_filterMap.mpr ⟨f, hf, himport⟩
    have hname : name ∈ d.importedNames := ClassName.mem_importNames_iff.mpr
      ⟨hne, name, List.mem_append_left _ hmem, bare_of_isQualifiedName hq⟩
    have hget : imports.get? f.writtenType = some name := by
      rw [OrderedMap.get?_eq_some_iff, hentries, hwritten]
      exact List.mem_map_of_mem hname
    have hbare : ClassName.bare f.writtenType = f.writtenType := by
      have hlast := isWord_of_mem_words hq _ (Segments.last_mem _)
      rw [hwritten, short_of_isQualifiedName hq]
      exact ClassName.bare_of_notMem_head? fun hm =>
        hlast.notMem (c := '\\') (by decide) (List.mem_of_mem_head? hm)
    rw [ClassName.resolve, hbare, hget]
    dsimp only
    rw [ClassName.qualify, bare_of_isQualifiedName hq, htype]

lemma parameters_outline (d : EntityDefinition) :
    (Outline.methodTree (d.properties.map writtenField)).parameterList.map sourceText =
      d.properties.map fun f => "public readonly " ++ f.writtenType ++ " $" ++ f.name := by
  rw [Outline.parameterList_methodTree, List.map_map, List.map_map]
  refine List.map_congr_left fun f _ => ?_
  rw [Function.comp_apply, Function.comp_apply, Outline.sourceText_parameterTree, writtenField,
    String.ofList_toList, String.ofList_toList]

/-- **A generated class is read back.** -/
theorem parse_render {ns name : String} {columns : List String} {types : OrderedMap String String}
    {base : BaseClass} (hbuild : build ns name columns types base = .ok d) (h : d.Legible) :
    ∃ root declared constructed, Syntax.parse d.render = some root ∧
      d.ReadsAs root declared constructed := by
  obtain ⟨-, -, rfl, -, himports⟩ := build_eq_ok_iff.mp hbuild
  have himports : d.imports = d.importedNames.map ClassName.useLine := himports
  obtain ⟨first, more, hi⟩ := List.exists_cons_of_ne_nil (importedNames_ne_nil d)
  have htext := toList_render (himports.trans (by rw [hi]))
  have hparse := Outline.parse_text (h.spelled hi) (h.unreserved hi)
  rw [← htext, String.ofList_toList] at hparse
  refine ⟨_, (d.outline first more).classTree, Outline.methodTree (d.outline first more).properties,
    hparse, ?_⟩
  exact
    { imports := collect_entries h hi _
      importLines := himports
      sorted := ClassName.pairwise_importNames _
      firstClass := Outline.firstClass?_tree _ _
      className := by rw [Outline.declaredName_classTree, outline, String.ofList_toList]
      methods := rfl
      methodName := rfl
      parameters := parameters_outline d
      types := fun f hf hclass => resolve_writtenType h (collect_entries h hi _) hf hclass }

def userEntity : EntityDefinition where
  namespaceName := "App\\Entities"
  className := "UserEntity"
  baseClass := .data
  properties := [⟨"id", "int", by decide, by decide⟩,
    ⟨"email_verified_at", "\\Illuminate\\Support\\Carbon", by decide, by decide⟩]
  imports := ["use Illuminate\\Support\\Carbon;", "use Spatie\\LaravelData\\Data;"]
  namespaceName_ne := by decide
  className_ne := by decide

lemma legible_userEntity : userEntity.Legible where
  namespaceName := by decide
  className := by decide
  columns := by decide
  types := by
    simp only [userEntity, List.forall_mem_cons]
    exact ⟨.inl (by decide), .inr ⟨"Illuminate\\Support\\Carbon", rfl, by decide⟩, by simp⟩
  imports := by decide

/-- A bookkeeping column is left out. -/
theorem parse_render_user : ∃ root declared constructed,
    build "App\\Entities" "UserEntity" ["id", "email_verified_at", "created_at"]
      (.ofList [("id", "int"), ("email_verified_at", "\\Illuminate\\Support\\Carbon")]) .data =
        .ok userEntity ∧ userEntity.Legible ∧
    Syntax.parse userEntity.render = some root ∧ userEntity.ReadsAs root declared constructed := by
  have hbuild : build "App\\Entities" "UserEntity" ["id", "email_verified_at", "created_at"]
      (.ofList [("id", "int"), ("email_verified_at", "\\Illuminate\\Support\\Carbon")]) .data =
        .ok userEntity :=
    build_eq_ok_iff.mpr ⟨rfl, rfl, rfl, fieldsOf_eq_ok_iff.mpr ⟨by decide, by decide⟩, by decide⟩
  obtain ⟨root, declared, constructed, hparse, hreads⟩ := parse_render hbuild legible_userEntity
  exact ⟨root, declared, constructed, hbuild, legible_userEntity, hparse, hreads⟩

end EntityDefinition

end EloquentEntity

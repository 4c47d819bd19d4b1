import EloquentEntity.Entity.Template
import EloquentEntity.Proofs.Syntax.Lexer

/-!
The tokens of a generated class.

`Outline` holds the words that vary from class to class. Its tokens are spaced, so the lexer reads
them back from the text of the class.
-/

namespace EloquentEntity

open Syntax

lemma intercalate_cons {α : Type} (s l : List α) (ls : List (List α)) :
    s.intercalate (l :: ls) = l ++ ls.flatMap (s ++ ·) := by
  induction ls generalizing l with
  | nil => simp
  | cons m ls ih => simp [List.intercalate_cons_cons, ih]

structure Segments where
  first : List Char
  more : List (List Char)

/-- The words that vary in the text of a generated class. -/
structure Outline where
  space : Segments
  firstImport : Segments
  moreImports : List Segments
  name : List Char
  base : List Char
  /-- Type and name of each property. -/
  properties : List (List Char × List Char)

namespace Segments

def text (n : Segments) : List Char := n.first ++ n.more.flatMap ('\\' :: ·)

def words (n : Segments) : List (List Char) := n.first :: n.more

def moreTokens (w : List Char) : List Token := [markAt [] '\\', wordAt [] w]

def tokens (g : List Char) (n : Segments) : List Token :=
  wordAt g n.first :: n.more.flatMap moreTokens

/-- The segments of a name that is written with backslashes. -/
def ofName (name : List Char) : Segments :=
  match name.splitOn '\\' with
  | [] => ⟨[], []⟩
  | w :: ws => ⟨w, ws⟩

lemma words_ofName (name : List Char) : (ofName name).words = name.splitOn '\\' := by
  rw [ofName, words]
  cases h : name.splitOn '\\' with
  | nil => exact absurd h (List.splitOn_ne_nil _ _)
  | cons w ws => rfl

lemma text_ofName (name : List Char) : (ofName name).text = name := by
  have htext (n : Segments) : n.text = ['\\'].intercalate n.words := by
    rw [words, intercalate_cons, text]
    rfl
  rw [htext, words_ofName, List.intercalate_splitOn]

lemma writtenAll_tokens (g : List Char) (n : Segments) : writtenAll (n.tokens g) = g ++ n.text := by
  simp [writtenAll, tokens, text, Token.written, Token.text, wordAt, markAt, moreTokens,
    List.flatMap_assoc]

lemma parted_moreTokens {ws : List (List Char)} {ts : List Token} (hw : ∀ w ∈ ws, IsWord w)
    (h : Parted ts) : Parted (ws.flatMap moreTokens ++ ts) := by
  induction ws with
  | nil => exact h
  | cons w ws ih =>
    have ih := ih fun v hv => hw v (by simp [hv])
    simpa [moreTokens] using (ih.tightWord (hw w (by simp))).tightMark (c := '\\') (by decide)

lemma parted_tokens {n : Segments} {g : List Char} {ts : List Token} (hg : IsGap g)
    (hw : ∀ w ∈ n.words, IsWord w) (h : Parted ts) : Parted (n.tokens g ++ ts) :=
  (parted_moreTokens (fun w hm => hw w (List.mem_cons_of_mem _ hm)) h).word hg
    (hw _ List.mem_cons_self)

end Segments

namespace Outline

def declareTokens : List Token :=
  [markAt [] '(', wordAt [] "strict_types".toList, ⟨[], .symbol, ['='], false⟩,
    ⟨[], .number, ['1'], false⟩, markAt [] ')', markAt [] ';']

def namespaceTokens (n : Segments) : List Token :=
  wordAt ['\n', '\n'] "namespace".toList :: n.tokens [' '] ++ [markAt [] ';']

def importTokens (g : List Char) (n : Segments) : List Token :=
  wordAt g "use".toList :: n.tokens [' '] ++ [markAt [] ';']

/-- The indentation of parameters after a line end. -/
def parameterGap : List Char := "\n        ".toList

def parameterTokens (p : List Char × List Char) : List Token :=
  [wordAt parameterGap "public".toList, wordAt [' '] "readonly".toList, wordAt [' '] p.1,
    variableAt [' '] p.2]

def nextParameterTokens (p : List Char × List Char) : List Token :=
  markAt [] ',' :: parameterTokens p

def parametersTokens : List (List Char × List Char) → List Token
  | [] => []
  | p :: ps => parameterTokens p ++ ps.flatMap nextParameterTokens

def closingGap : List (List Char × List Char) → List Char
  | [] => "\n\n    ".toList
  | _ :: _ => "\n    ".toList

def methodTokens (ps : List (List Char × List Char)) : List Token :=
  [wordAt "\n    ".toList "public".toList, wordAt [' '] "function".toList,
    wordAt [' '] "__construct".toList, markAt [] '('] ++ parametersTokens ps ++
    [markAt (closingGap ps) ')', markAt [' '] '\x7b', markAt "\n    ".toList '\x7d']

def classTokens (o : Outline) : List Token :=
  [wordAt ['\n', '\n'] "final".toList, wordAt [' '] "class".toList, wordAt [' '] o.name,
    wordAt [' '] "extends".toList, wordAt [' '] o.base, markAt ['\n'] '\x7b'] ++
    methodTokens o.properties ++ [markAt ['\n'] '\x7d']

def stopToken : Token := ⟨['\n'], .stop, [], false⟩

def restTokens (o : Outline) : List Token :=
  declareTokens ++ namespaceTokens o.space ++ importTokens ['\n', '\n'] o.firstImport ++
    o.moreImports.flatMap (importTokens ['\n']) ++ o.classTokens ++ [stopToken]

def tokens (o : Outline) : List Token := wordAt "\n\n".toList "declare".toList :: o.restTokens

/-! ### The tokens are read back -/

structure Spelled (o : Outline) : Prop where
  space : ∀ w ∈ o.space.words, IsWord w
  imports : ∀ n ∈ o.firstImport :: o.moreImports, ∀ w ∈ n.words, IsWord w
  name : IsWord o.name
  base : IsWord o.base
  properties : ∀ p ∈ o.properties, IsWord p.1 ∧ IsWord p.2

variable {o : Outline} {ts : List Token} {p : List Char × List Char}
  {ps : List (List Char × List Char)} {n : Segments} {g : List Char}

lemma parted_parameterTokens (hp : IsWord p.1 ∧ IsWord p.2) (h : Parted ts) :
    Parted (parameterTokens p ++ ts) :=
  (((h.variable (g := [' ']) (by decide) hp.2).word (g := [' ']) (by decide) hp.1).word
    (g := [' ']) (w := "readonly".toList) (by decide) (by decide)).word (by decide) (by decide)

lemma parted_nextParameterTokens (hp : ∀ p ∈ ps, IsWord p.1 ∧ IsWord p.2) (h : Parted ts) :
    Parted (ps.flatMap nextParameterTokens ++ ts) := by
  induction ps with
  | nil => exact h
  | cons p ps ih =>
    have ih := ih fun q hq => hp q (by simp [hq])
    rw [List.flatMap_cons, List.append_assoc]
    exact (parted_parameterTokens (hp p (by simp)) ih).spaced.tightMark (by decide)

lemma parted_parametersTokens (hp : ∀ p ∈ ps, IsWord p.1 ∧ IsWord p.2) (h : Parted ts) :
    Parted (parametersTokens ps ++ ts) := by
  cases ps with
  | nil => exact h
  | cons p ps =>
    rw [parametersTokens, List.append_assoc]
    exact parted_parameterTokens (hp p (by simp))
      (parted_nextParameterTokens (fun q hq => hp q (by simp [hq])) h)

lemma parted_importTokens (hg : IsGap g) (hw : ∀ w ∈ n.words, IsWord w) (h : Spaced ts) :
    Parted (importTokens g n ++ ts) := by
  have hname := Segments.parted_tokens (g := [' ']) (by decide) hw
    (h.tightMark (c := ';') (by decide))
  simpa [importTokens] using hname.word (w := "use".toList) hg (by decide)

lemma parted_moreImportTokens {ns : List Segments} (hw : ∀ n ∈ ns, ∀ w ∈ n.words, IsWord w)
    (h : Parted ts) : Parted (ns.flatMap (importTokens ['\n']) ++ ts) := by
  induction ns with
  | nil => exact h
  | cons n ns ih =>
    have ih := ih fun m hm => hw m (by simp [hm])
    rw [List.flatMap_cons, List.append_assoc]
    exact parted_importTokens (by decide) (hw n (by simp)) ih.spaced

lemma isGap_closingGap (ps : List (List Char × List Char)) : IsGap (closingGap ps) := by
  cases ps with
  | nil => decide
  | cons p ps => exact (by decide : IsGap "\n    ".toList)

lemma parted_methodTokens (hp : ∀ p ∈ ps, IsWord p.1 ∧ IsWord p.2) (h : Spaced ts) :
    Parted (methodTokens ps ++ ts) := by
  have hbody := ((h.mark (g := "\n    ".toList) (c := '\x7d') (by decide) (by decide)).spaced.mark
    (g := [' ']) (c := '\x7b') (by decide) (by decide)).spaced
  have hclose := hbody.mark (isGap_closingGap ps) (c := ')') (by decide)
  have hopen := (parted_parametersTokens hp hclose).spaced.tightMark (c := '(') (by decide)
  have hname := hopen.word (g := [' ']) (w := "__construct".toList) (by decide) (by decide)
  have hmethod := (hname.word (g := [' ']) (w := "function".toList) (by decide) (by decide)).word
    (g := "\n    ".toList) (w := "public".toList) (by decide) (by decide)
  simpa [methodTokens] using hmethod

lemma parted_classTokens (h : o.Spelled) (hs : Spaced ts) : Parted (o.classTokens ++ ts) := by
  have hend := (hs.mark (g := ['\n']) (c := '\x7d') (by decide) (by decide)).spaced
  have hmethod := (parted_methodTokens h.properties hend).spaced.mark (g := ['\n'])
    (c := '\x7b') (by decide) (by decide)
  have hextends := (hmethod.word (g := [' ']) (by decide) h.base).word (g := [' '])
    (w := "extends".toList) (by decide) (by decide)
  have hclass := ((hextends.word (g := [' ']) (by decide) h.name).word (g := [' '])
    (w := "class".toList) (by decide) (by decide)).word (g := ['\n', '\n'])
    (w := "final".toList) (by decide) (by decide)
  simpa [classTokens] using hclass

lemma scans_equals (s : List Char) : Scans ⟨.symbol, ['='], false⟩ ('1' :: s) :=
  ⟨by simp, rfl, rfl, fun {modes} hm => ⟨modes, hm, rfl⟩⟩

lemma digitsLength_parenthesis (s : List Char) : digitsLength Char.isDigit (')' :: s) = 0 := by
  rw [digitsLength.eq_def]
  split
  · rfl
  · next h => obtain rfl := (List.cons.inj h).1; rfl
  · next h => obtain rfl := (List.cons.inj h).1; rfl
  · next h => obtain rfl := (List.cons.inj h).1; rfl

lemma numberLength_one (s : List Char) : numberLength ('1' :: ')' :: s) = 1 := by
  have hdigits : digitsLength Char.isDigit ('1' :: ')' :: s) = 1 := by
    simp [digitsLength, digitsLength_parenthesis]
  simp [numberLength, decimalLength, wholeLength, hdigits, exponentLength]

lemma scans_one (s : List Char) : Scans ⟨.number, ['1'], false⟩ (')' :: s) := by
  refine ⟨by simp, rfl, rfl, fun {modes} hm => ⟨modes, hm, ?_⟩⟩
  change Scan.mk .number (numberLength ('1' :: ')' :: s)) modes = _
  rw [numberLength_one]
  rfl

lemma parted_declareTokens (h : Spaced ts) : Parted (declareTokens ++ ts) := by
  have hclose := (h.tightMark (c := ';') (by decide)).spaced.tightMark (c := ')') (by decide)
  have hone : Spaced (⟨[], .number, ['1'], false⟩ :: markAt [] ')' :: markAt [] ';' :: ts) :=
    .cons (show Blank [] by decide) (scans_one (writtenAll (markAt [] ';' :: ts))) hclose.spaced
  have hequals : Spaced (⟨[], .symbol, ['='], false⟩ :: ⟨[], .number, ['1'], false⟩ ::
      markAt [] ')' :: markAt [] ';' :: ts) :=
    .cons (show Blank [] by decide)
      (scans_equals (writtenAll (markAt [] ')' :: markAt [] ';' :: ts))) hone
  have hword := Parted.tightWord (w := "strict_types".toList) ⟨hequals, fun e he => ?_⟩ (by decide)
  · exact hword.tightMark (by decide)
  · obtain rfl : '=' = e := by simpa [writtenAll, Token.written, Token.text] using he
    decide

lemma parted_namespaceTokens (hw : ∀ w ∈ n.words, IsWord w) (h : Spaced ts) :
    Parted (namespaceTokens n ++ ts) := by
  have hname := Segments.parted_tokens (g := [' ']) (by decide) hw
    (h.tightMark (c := ';') (by decide))
  simpa [namespaceTokens] using
    hname.word (g := ['\n', '\n']) (w := "namespace".toList) (by decide) (by decide)

lemma parted_restTokens (h : o.Spelled) : Parted o.restTokens := by
  have hstop : Spaced [stopToken] := .stop (by decide)
  have hmore := parted_moreImportTokens (fun n hn => h.imports n (List.mem_cons_of_mem _ hn))
    (parted_classTokens h hstop)
  have hfirst := parted_importTokens (g := ['\n', '\n']) (by decide)
    (h.imports o.firstImport (by simp)) hmore.spaced
  have hspace := parted_namespaceTokens h.space hfirst.spaced
  simpa [restTokens] using parted_declareTokens hspace.spaced

def text (o : Outline) : List Char := "<?php".toList ++ writtenAll o.tokens

/-- The tokens of the text, the opening tag being in the first gap. -/
lemma tokens_text (h : o.Spelled) :
    Syntax.tokens (String.ofList o.text) =
      wordAt ("<?php".toList ++ ['\n', '\n']) "declare".toList :: o.restTokens :=
  tokens_spaced (t := wordAt ['\n', '\n'] "declare".toList) (by decide)
    (scans_word (by decide) (parted_restTokens h).apart) (parted_restTokens h).spaced

end Outline

/-! ### The text of a definition -/

namespace EntityDefinition

open Outline

lemma toList_importLine (n : String) (g : List Char) :
    writtenAll (importTokens g (.ofName n.toList)) = g ++ (ClassName.useLine n).toList := by
  have h := Segments.writtenAll_tokens [' '] (.ofName n.toList)
  rw [Segments.text_ofName] at h
  simp only [writtenAll] at h
  simp [writtenAll, importTokens, h, wordAt, markAt, Token.written, Token.text, ClassName.useLine]

def writtenField (f : EntityField) : List Char × List Char := (f.writtenType.toList, f.name.toList)

def outline (d : EntityDefinition) (first : String) (more : List String) : Outline where
  space := .ofName d.namespaceName.toList
  firstImport := .ofName first.toList
  moreImports := more.map fun n => .ofName n.toList
  name := d.className.toList
  base := d.baseClass.name.toList
  properties := d.properties.map writtenField

lemma toList_moreImportLines (names : List String) :
    writtenAll ((names.map fun n => Segments.ofName n.toList).flatMap (importTokens ['\n'])) =
      (names.map ClassName.useLine).flatMap fun line => '\n' :: line.toList := by
  induction names with
  | nil => rfl
  | cons n names ih =>
    rw [List.map_cons, List.flatMap_cons, writtenAll_append, ih, toList_importLine]
    simp

lemma parameterLine_eq (f : EntityField) :
    parameterLine f = "        public readonly " ++ f.writtenType ++ " $" ++ f.name := rfl

lemma toList_parameterLine (f : EntityField) :
    writtenAll (parameterTokens (writtenField f)) = '\n' :: (parameterLine f).toList := by
  have hword (g w : List Char) (ts : List Token) :
      writtenAll (wordAt g w :: ts) = g ++ w ++ writtenAll ts := rfl
  have hvariable (g w : List Char) (ts : List Token) :
      writtenAll (variableAt g w :: ts) = g ++ '$' :: w ++ writtenAll ts := rfl
  have hline : (parameterLine f).toList = "        public readonly ".toList ++
      (f.writtenType.toList ++ (" $".toList ++ (f.name.toList ++ []))) := by
    rw [parameterLine_eq, String.toList_append, String.toList_append, String.toList_append,
      List.append_nil, List.append_assoc, List.append_assoc]
  rw [hline, parameterTokens, hword, hword, hword, hvariable]
  rfl

lemma toList_moreParameterLines (fields : List EntityField) :
    writtenAll ((fields.map writtenField).flatMap nextParameterTokens) =
      ((fields.map parameterLine).map String.toList).flatMap (",\n".toList ++ ·) := by
  induction fields with
  | nil => rfl
  | cons f fields ih =>
    have hcomma (ts : List Token) : writtenAll (markAt [] ',' :: ts) = ',' :: writtenAll ts := rfl
    rw [List.map_cons, List.flatMap_cons, writtenAll_append, ih, nextParameterTokens, hcomma,
      toList_parameterLine]
    rfl

/-- The parameters up to the parenthesis that closes them. Without any, an empty line stands
there. -/
lemma toList_parameterLines (fields : List EntityField) :
    writtenAll (parametersTokens (fields.map writtenField)) ++
      closingGap (fields.map writtenField) =
      '\n' :: (",\n".intercalate (fields.map parameterLine)).toList ++ "\n    ".toList := by
  rw [String.toList_intercalate]
  cases fields with
  | nil => rfl
  | cons f fields =>
    rw [List.map_cons, List.map_cons, List.map_cons, intercalate_cons, parametersTokens,
      writtenAll_append, toList_parameterLine, toList_moreParameterLines]
    rfl

variable {d : EntityDefinition} {first : String} {more : List String}

lemma toList_namespaceLine (ns : String) : writtenAll (namespaceTokens (.ofName ns.toList)) =
    "\n\nnamespace ".toList ++ ns.toList ++ [';'] := by
  have hname := Segments.writtenAll_tokens [' '] (.ofName ns.toList)
  rw [Segments.text_ofName] at hname
  rw [namespaceTokens, writtenAll_append]
  change ("\n\nnamespace".toList ++ writtenAll (Segments.tokens [' '] (.ofName ns.toList))) ++
    [';'] = _
  rw [hname]
  simp

lemma toList_methodLines (fields : List EntityField) :
    writtenAll (methodTokens (fields.map writtenField)) =
      "\n    public function __construct(\n".toList ++
        (",\n".intercalate (fields.map parameterLine)).toList ++
        "\n    ) \x7b\n    \x7d".toList := by
  have hclose (ts : List Token) :
      writtenAll (markAt (closingGap (fields.map writtenField)) ')' :: ts) =
        closingGap (fields.map writtenField) ++ ')' :: writtenAll ts := by
    simp [writtenAll, markAt, Token.written, Token.text]
  rw [methodTokens, writtenAll_append, writtenAll_append, hclose, List.append_assoc,
    ← List.append_assoc (writtenAll (parametersTokens _)), toList_parameterLines]
  simp [writtenAll, wordAt, markAt, Token.written, Token.text]

lemma toList_classLines : writtenAll (d.outline first more).classTokens =
    ("\n\nfinal class " ++ d.className ++ " extends " ++ d.baseClass.name).toList ++
      "\n\x7b\n    public function __construct(\n".toList ++
      (",\n".intercalate (d.properties.map parameterLine)).toList ++
      "\n    ) \x7b\n    \x7d\n\x7d".toList := by
  have hmethod := toList_methodLines d.properties
  rw [classTokens, writtenAll_append, writtenAll_append, outline, hmethod]
  simp [writtenAll, wordAt, markAt, Token.written, Token.text]

/-- **The text of a class is the text of its outline.** -/
lemma toList_render (h : d.imports = (first :: more).map ClassName.useLine) :
    d.render.toList = (d.outline first more).text := by
  have hdeclare : writtenAll declareTokens = "(strict_types=1);".toList := rfl
  have hstop : writtenAll [stopToken] = ['\n'] := rfl
  have htag (ts : List Token) : writtenAll (wordAt "\n\n".toList "declare".toList :: ts) =
      "\n\ndeclare".toList ++ writtenAll ts := rfl
  rw [render, renderedLines, h, Outline.text, Outline.tokens, restTokens, htag, writtenAll_append,
    writtenAll_append, writtenAll_append, writtenAll_append, writtenAll_append, hdeclare, hstop,
    toList_classLines, outline, toList_namespaceLine, toList_importLine, toList_moreImportLines]
  simp [String.toList_intercalate, intercalate_cons, List.flatMap_map]

end EntityDefinition

end EloquentEntity

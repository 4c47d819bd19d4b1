import EloquentEntity.OrderedMap
import EloquentEntity.Text.Blank

/-!
Environment files: lines `NAME=value`, with quotes, comments and references to variables.

A line that cannot be read is skipped. A value may refer to variables of earlier lines and of the
process as `$\x7bNAME\x7d`, with a default after `:-`.
-/

namespace EloquentEntity.EnvFile

open Text

/-! ### Reading a binding -/

/-- Something was read and the text after it is left, or the text where reading stopped. -/
abbrev Reading (α : Type) := Except (List Char) (α × List Char)

def skipInline (s : List Char) : List Char := s.dropWhile isInlineBlank

/-- Drops the word `export` and the white space after it. -/
def skipExport (s : List Char) : List Char :=
  let rest := s.drop 6
  if s.take 6 == "export".toList && rest.head?.any isInlineBlank then skipInline rest else s

/-- The name of a variable, or none where a comment stands. -/
def key (s : List Char) : Reading (Option (List Char)) :=
  match s with
  | '#' :: _ => .ok (none, s)
  | '\'' :: r =>
    match r.takeWhile (· != '\''), r.dropWhile (· != '\'') with
    | k@(_ :: _), _ :: rest => .ok (some k, rest)
    | _, _ => .error s
  | _ =>
    match s.takeWhile fun c => c != '=' && c != '#' && !isBlank c with
    | [] => .error s
    | k => .ok (some k, s.drop k.length)

/-- The text up to a closing quote that no backslash precedes. -/
def quotedText (q : Char) : List Char → Option (List Char × List Char)
  | [] => none
  | '\\' :: c :: s => (quotedText q s).map fun (t, r) => ('\\' :: c :: t, r)
  | c :: s =>
    if c == q then some ([], s)
    else if c == '\\' then none
    else (quotedText q s).map fun (t, r) => (c :: t, r)

/-- Replaces a backslash and a character that `meaning` knows; any other backslash stays. -/
def unescape (meaning : Char → Option Char) : List Char → List Char
  | [] => []
  | '\\' :: c :: s =>
    match meaning c with
    | some d => d :: unescape meaning s
    | none => '\\' :: unescape meaning (c :: s)
  | c :: s => c :: unescape meaning s

def singleEscape (c : Char) : Option Char :=
  if c == '\\' || c == '\'' then some c else none

def doubleEscape : Char → Option Char
  | '\\' => some '\\'
  | '\'' => some '\''
  | '\"' => some '\"'
  | 'a' => some '\x07'
  | 'b' => some '\x08'
  | 'f' => some '\x0C'
  | 'n' => some '\n'
  | 'r' => some '\r'
  | 't' => some '\t'
  | 'v' => some '\x0B'
  | _ => none

/-- The text before the first white space that a number sign follows. -/
def withoutComment : List Char → List Char
  | [] => []
  | c :: s =>
    if isBlank c && (s.dropWhile isBlank).head? == some '#' then [] else c :: withoutComment s

def isLineBreak (c : Char) : Bool := c == '\n' || c == '\r'

/-- The value after an equals sign and the white space that follows it. -/
def value (s : List Char) : Reading (List Char) :=
  let afterBlanks := skipInline s
  match afterBlanks with
  | [] => .ok ([], [])
  | '\'' :: r =>
    match quotedText '\'' r with
    | some (t, rest) => .ok (unescape singleEscape t, rest)
    | none => .error afterBlanks
  | '\"' :: r =>
    match quotedText '\"' r with
    | some (t, rest) => .ok (unescape doubleEscape t, rest)
    | none => .error afterBlanks
  | c :: _ =>
    if c == '#' && s.head?.any isInlineBlank then .ok ([], afterBlanks)
    else
      let line := afterBlanks.takeWhile (!isLineBreak ·)
      .ok (trimRight (withoutComment line), afterBlanks.drop line.length)

def endOfLine (s : List Char) : Reading Unit :=
  let rest := match skipInline s with
    | '#' :: r => r.dropWhile (!isLineBreak ·)
    | _ => s
  match skipInline rest with
  | [] => .ok ((), [])
  | '\r' :: '\n' :: r => .ok ((), r)
  | c :: r => if isLineBreak c then .ok ((), r) else .error rest

/-- A name, if there is one, and its value, if there is an equals sign. -/
abbrev Binding := Option String × Option String

def assigned (s : List Char) : Reading (Option (List Char)) :=
  match skipInline s with
  | '=' :: r => (value r).map fun (v, r) => (some v, r)
  | s => .ok (none, s)

/-- One binding and the rest of its line, from the first character that is no white space. -/
def binding (s : List Char) : Reading Binding :=
  match key (skipExport s) with
  | .error stopped => .error stopped
  | .ok (name, s) =>
    match assigned s with
    | .error stopped => .error stopped
    | .ok (v, s) =>
      match endOfLine s with
      | .error stopped => .error stopped
      | .ok (_, s) => .ok ((name.map String.ofList, v.map String.ofList), s)

def skipLine (s : List Char) : List Char :=
  match s.dropWhile (!isLineBreak ·) with
  | '\r' :: '\n' :: r => r
  | _ :: r => r
  | [] => []

/-- At most `fuel` bindings. -/
def bindingsFrom : Nat → List Char → List Binding
  | 0, _ => []
  | fuel + 1, s =>
    match trimLeft s with
    | [] => []
    | s =>
      match binding s with
      | .ok (b, rest) => b :: bindingsFrom fuel rest
      | .error stopped => bindingsFrom fuel (skipLine stopped)

def bindings (s : List Char) : List (String × Option String) :=
  (bindingsFrom (s.length + 1) s).filterMap fun
    | (some k, v) => some (k, v)
    | (none, _) => none

/-! ### References -/

/-- A reference behind `$\x7b`: the name, the default, and the text after it. -/
def reference? (s : List Char) : Option (List Char × List Char × List Char) :=
  let name := s.takeWhile fun c => c != '\x7d' && c != ':'
  match s.drop name.length with
  | '\x7d' :: r => some (name, [], r)
  | ':' :: '-' :: r =>
    let default := r.takeWhile (· != '\x7d')
    match r.drop default.length with
    | _ :: r => some (name, default, r)
    | [] => none
  | _ => none

/-- Replaces references by what `look` gives for name and default; at most `fuel` characters
are read. -/
def expandFrom (look : List Char → List Char → List Char) : Nat → List Char → List Char
  | 0, _ | _, [] => []
  | fuel + 1, c :: s =>
    match c, s with
    | '$', '\x7b' :: r =>
      match reference? r with
      | some (name, default, rest) => look name default ++ expandFrom look fuel rest
      | none => c :: expandFrom look fuel s
    | _, _ => c :: expandFrom look fuel s

/-- What a reference stands for: a variable of the file, else of the process, else the default.
A variable of the file without a value stands for nothing. -/
def lookUp (process : List (String × String)) (file : OrderedMap String (Option String))
    (name default : List Char) : List Char :=
  let name := String.ofList name
  match file.get? name with
  | some v => (v.getD "").toList
  | none => ((process.lookup name).map String.toList).getD default

def define (process : List (String × String)) (file : OrderedMap String (Option String))
    (b : String × Option String) : OrderedMap String (Option String) :=
  file.put b.1 (b.2.map fun v =>
    String.ofList (expandFrom (lookUp process file) v.length v.toList))

/-- The variables of an environment file, in a process with these variables. -/
def variablesOf (process : List (String × String)) (text : String) :
    OrderedMap String (Option String) :=
  let s := match text.toList with
    | '\uFEFF' :: s => s
    | s => s
  (bindings s).foldl (define process) ∅

end EloquentEntity.EnvFile

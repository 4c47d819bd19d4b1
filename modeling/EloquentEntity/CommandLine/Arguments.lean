import EloquentEntity.CommandLine.Word

/-!
What a command line asks for: a model, and what its switches say about the run.

Words are taken in order. The first value is the model. Switches of one letter may share a word,
and the last of them may have its value there.
-/

namespace EloquentEntity.CommandLine

structure Arguments where
  model : String
  namespaceName : String
  suffix : String
  resource : Bool
  force : Bool
  dryRun : Bool
  path : String
  databaseUrl : Option String
  table : Option String
  verbosity : Nat
  quiet : Bool
  deriving DecidableEq, Repr

/-- Why there is no run. -/
inductive Stop where
  | help
  | version
  | usage (e : UsageError)
  deriving DecidableEq, Repr

namespace Arguments

def initial : Arguments :=
  ⟨"", "Entities", "Entity", false, false, false, ".", none, none, 0, false⟩

def apply (a : Arguments) (s : Switch) (value : String) : Except Stop Arguments :=
  match s with
  | .help => .error .help
  | .version => .error .version
  | .namespaceName => .ok { a with namespaceName := value }
  | .suffix => .ok { a with suffix := value }
  | .resource => .ok { a with resource := true }
  | .force => .ok { a with force := true }
  | .dryRun => .ok { a with dryRun := true }
  | .path => .ok { a with path := value }
  | .databaseUrl => .ok { a with databaseUrl := some value }
  | .table => .ok { a with table := some value }
  | .verbose => .ok { a with verbosity := a.verbosity + 1 }
  | .quiet => .ok { a with quiet := true }

def applyAll (a : Arguments) (given : List (Switch × String)) : Except Stop Arguments :=
  given.foldlM (fun a g => a.apply g.1 g.2) a

end Arguments

/-! ### Switches that share a word -/

/-- What a word says: switches with their values, a switch whose value is in the next word, and
letters that are no switches. -/
structure Cluster where
  given : List (Switch × String)
  waiting : Option Switch
  rest : Option String
  deriving DecidableEq, Repr

namespace Cluster

def last (s : Switch) : Cluster :=
  if s.takesValue then ⟨[], some s, none⟩ else ⟨[(s, "")], none, none⟩

def cons (s : Switch) (c : Cluster) : Cluster := { c with given := (s, "") :: c.given }

/-- Reads the text that is attached to a switch: its value, or more switches if it is one of one
letter. -/
def read (s : Switch) (short bySign : Bool) : List Char → Except UsageError Cluster
  | [] => if s.takesValue then .ok ⟨[(s, "")], none, none⟩ else .error (.ignoredValue s "")
  | c :: text =>
    let all := String.ofList (c :: text)
    if s.takesValue then .ok ⟨[(s, all)], none, none⟩
    else if !short || bySign || c == '-' then .error (.ignoredValue s all)
    else match Switch.ofLetter? c, text with
      | none, _ => .ok ⟨[(s, "")], none, some ("-" ++ all)⟩
      | some t, [] => .ok ((last t).cons s)
      | some t, '=' :: text => (read t true true text).map (cons s)
      | some t, d :: text => (read t true false (d :: text)).map (cons s)

def ofWord (s : Switch) (spelling : String) : Option Attached → Except UsageError Cluster
  | none => .ok (last s)
  | some a => read s (spelling.length = 2) a.bySign a.text

/-- The switches with their values, where the next word may give the last of them. -/
def complete (c : Cluster) (next : Option String) : Except UsageError (List (Switch × String)) :=
  match c.waiting, next with
  | none, _ => .ok c.given
  | some s, some value => .ok (c.given ++ [(s, value)])
  | some s, none => .error (.missingValue s)

end Cluster

/-! ### The whole line -/

/-- The arguments so far, the model if there is one yet, and the words that nothing was made of. -/
structure Progress where
  arguments : Arguments
  model : Option String
  extras : List String
  deriving DecidableEq, Repr

namespace Progress

def addExtra (p : Progress) (w : String) : Progress := { p with extras := p.extras ++ [w] }

/-- Takes the switches of a word, whose value may be in the next one. -/
def takeCluster (p : Progress) (c : Cluster) (next : Option String) : Except Stop Progress :=
  match c.complete next with
  | .error e => .error (.usage e)
  | .ok given =>
    match p.arguments.applyAll given with
    | .error stop => .error stop
    | .ok a => .ok { p with arguments := a, extras := p.extras ++ c.rest.toList }

/-- Takes the words in order. A separator next to the model belongs to it. -/
def takeWords (p : Progress) : List Word → Except Stop Progress
  | [] => .ok p
  | .value v :: ws =>
    match p.model, ws with
    | some _, ws => takeWords (p.addExtra v) ws
    | none, .separator :: ws => takeWords { p with model := some v } ws
    | none, ws => takeWords { p with model := some v } ws
  | .separator :: ws =>
    match p.model, ws with
    | none, .value v :: ws => takeWords { p with model := some v } ws
    | _, ws => takeWords (p.addExtra "--") ws
  | .unknown w :: ws => takeWords (p.addExtra w) ws
  | .switch s spelling attached :: ws =>
    match Cluster.ofWord s spelling attached with
    | .error e => .error (.usage e)
    | .ok c =>
      match c.waiting, ws with
      | some _, .value v :: ws =>
        match p.takeCluster c (some v) with
        | .error stop => .error stop
        | .ok p => takeWords p ws
      | _, ws =>
        match p.takeCluster c none with
        | .error stop => .error stop
        | .ok p => takeWords p ws

def finish (p : Progress) : Except Stop Arguments :=
  match p.model, p.extras with
  | none, _ => .error (.usage .missingModel)
  | some m, [] => .ok { p.arguments with model := m }
  | some _, extras => .error (.usage (.unrecognized extras))

end Progress

/-- The arguments that the words of a command line stand for. -/
def readArguments (words : List String) : Except Stop Arguments :=
  match readWords words with
  | .error e => .error (.usage e)
  | .ok words =>
    match (Progress.mk .initial none []).takeWords words with
    | .error stop => .error stop
    | .ok p => p.finish

end EloquentEntity.CommandLine

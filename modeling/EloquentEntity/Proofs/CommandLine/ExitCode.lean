import EloquentEntity.CommandLine.Run
import EloquentEntity.Proofs.Generate.Fault

/-!
The exit codes of the program.

Each way in which a run ends has its code, unless it is a fault; then there is no code at all.
-/

namespace EloquentEntity.CommandLine

open Procedure

variable {a : Arguments} {process : Database.Environment} {time : TimeFormat} {words : List String}
  {c : Settings} {s : Session} {f : Fault} {n m : Nat}

/-- The session in which a class is generated: its log names the model and the output. -/
def opened (c : Settings) (s : Session) : Session :=
  { s with log := s.log ++
    [.info speaker s!"Model:   {c.sourcePath}", .info speaker s!"Output:  {c.outputPath}"] }

def generated (c : Settings) (process : Database.Environment) (s : Session) :
    Except Failure Report :=
  ((Generate.generate c (Generate.columnsOfProject c process)).on (opened c s)).1

/-- How the program ends for the arguments, with the code of each end. -/
inductive Ends (a : Arguments) (process : Database.Environment) (s : Session) : Nat → Prop
  | success {c : Settings} {r : Report} :
      Settings.ofRaw (a.fields s.files.currentPath) = .ok c → generated c process s = .ok r →
      Ends a process s 0
  | invalid {issues : List FieldIssue} :
      Settings.ofRaw (a.fields s.files.currentPath) = .error issues → Ends a process s 1
  | refused {c : Settings} {r : Refusal} :
      Settings.ofRaw (a.fields s.files.currentPath) = .ok c →
      generated c process s = .error (.refused r) → Ends a process s r.phase.exitCode

/-- There is one code, so that each tells how the program has ended. -/
lemma Ends.unique (hn : Ends a process s n) (hm : Ends a process s m) : n = m := by
  cases hn <;> cases hm <;> simp_all

end EloquentEntity.CommandLine

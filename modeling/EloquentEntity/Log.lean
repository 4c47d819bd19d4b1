/-!
Log entries: a level, the part of the program that speaks, and a text.

Timings are no part of an entry; it only says that one belongs to it.
-/

namespace EloquentEntity

inductive LogLevel where
  | debug | info | warning | error
  deriving DecidableEq, Repr

namespace LogLevel

def rank : LogLevel → Nat
  | debug => 10
  | info => 20
  | warning => 30
  | error => 40

def name : LogLevel → String
  | debug => "DEBUG"
  | info => "INFO"
  | warning => "WARNING"
  | error => "ERROR"

end LogLevel

structure LogEntry where
  level : LogLevel
  speaker : String
  text : String
  /-- The text is the name of a step that took some time. -/
  timed : Bool
  deriving DecidableEq, Repr

namespace LogEntry

def debug (speaker text : String) : LogEntry := ⟨.debug, speaker, text, false⟩
def info (speaker text : String) : LogEntry := ⟨.info, speaker, text, false⟩
def warning (speaker text : String) : LogEntry := ⟨.warning, speaker, text, false⟩
def error (speaker text : String) : LogEntry := ⟨.error, speaker, text, false⟩

def took (step : String) : LogEntry := ⟨.debug, "entitygen.utils", step, true⟩

/-- The text, where `time` is what timings are written as. -/
def message (time : String) (e : LogEntry) : String :=
  if e.timed then s!"{e.text} took {time}s" else e.text

def padRight (width : Nat) (s : String) : String :=
  s ++ String.ofList (List.replicate (width - s.length) ' ')

def line (time : String) (e : LogEntry) : String :=
  s!"{padRight 8 e.level.name} │ {e.speaker} │ {e.message time}"

end LogEntry

end EloquentEntity

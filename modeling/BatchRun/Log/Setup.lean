import BatchRun.Document.Basic
import BatchRun.Log.Filter

/-!
# Setting up the log

Events are written as text or as objects, as far as a filter admits them. The filter comes from
the environment if one can be read there. The log can be set up only once.

* `LogConfig`, `LogConfig.standard`, `LogConfig.filter`;
* `LogError`, **`LogConfig.install`**;
* `LogEvent.toText`, `LogEvent.toDocument`.
-/

namespace BatchRun

/-- How the log is to be set up. -/
structure LogConfig where
  /-- Whether events are written as objects. -/
  json : Bool
  /-- The filter, unless the environment gives one. -/
  defaultFilter : String
  deriving DecidableEq, Inhabited

/-- The filter that is taken if nothing is chosen. -/
def standardFilter : String := "info,kubejob=debug,kube=info,tower=warn,hyper=warn"

/-- Why the log cannot be set up. -/
inductive LogError where
  | filter
  /-- It has been set up already. -/
  | alreadySet
  deriving DecidableEq, Inhabited

/-- The wording of a log error. -/
def LogError.message : LogError → String
  | filter => "invalid log filter"
  | alreadySet => "failed to initialize tracing subscriber"

namespace LogConfig

/-- The configuration for a format given in the environment. -/
def standard (format : Option String) : LogConfig :=
  ⟨match format with
    | some s => Threshold.lower s == "json"
    | none => false, standardFilter⟩

/-- The filter: the one of the environment if it can be read, else the default. -/
def filter (c : LogConfig) (environment : Option String) : Except LogError Filter :=
  let own : Except LogError Filter :=
    match Filter.parse? c.defaultFilter with
    | some f => .ok f
    | none => .error .filter
  match environment with
  | some s =>
    match Filter.parse? s with
    | some f => .ok f
    | none => own
  | none => own

/-- Sets the log up where `current` is what has been set up before. -/
def install (c : LogConfig) (environment : Option String) (current : Option (LogConfig × Filter)) :
    Except LogError (LogConfig × Filter) := do
  let f ← c.filter environment
  match current with
  | some _ => .error .alreadySet
  | none => .ok (c, f)

end LogConfig

/-- An event with a message and one number. -/
structure LogEvent where
  level : Level
  target : String
  message : String
  number : String × Nat

namespace LogEvent

/-- The names of the fields. -/
def fieldNames (e : LogEvent) : List String := ["message", e.number.1]

/-- The event as a line of text. -/
def toText (e : LogEvent) : String :=
  s!"{e.level.name} {e.message} {e.number.1}={e.number.2}"

/-- The event as an object. -/
def toDocument (e : LogEvent) : Document :=
  .object [("level", .string e.level.name),
    ("fields", .object [("message", .string e.message), (e.number.1, .int e.number.2)]),
    ("target", .string e.target)]

/-- The event as it is written, if it passes. -/
def written? (e : LogEvent) (c : LogConfig) (f : Filter) : Option Document :=
  if f.admits e.level e.target e.fieldNames then
    some (if c.json then e.toDocument else .string e.toText)
  else none

end LogEvent

end BatchRun

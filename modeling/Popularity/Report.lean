/-!
# Reports

The library says what it does by reports: a log event, or a metric that goes up by one. Nothing
that a caller gets back depends on them.

## Main definitions

* `Level`, `Field`, `Span`, `Event`
* `Metric` — a counter with labels and its `label`
* `Report`
-/

namespace Popularity

/-- How loud an event is. -/
inductive Level where
  | error
  | warn
  | info
  | debug
  | trace
  deriving DecidableEq, Repr, Inhabited

namespace Level

/-- The level's name in a log line. -/
def name : Level → String
  | .error => "ERROR"
  | .warn => "WARN"
  | .info => "INFO"
  | .debug => "DEBUG"
  | .trace => "TRACE"

/-- One for the gravest level, up to five. -/
def rank : Level → Nat
  | .error => 1
  | .warn => 2
  | .info => 3
  | .debug => 4
  | .trace => 5

end Level

/-- The value of a field of an event. -/
inductive Field where
  /-- A value in its display form. -/
  | shown (s : String)
  /-- A piece of text, which a log line puts between quotes. -/
  | text (s : String)
  | int (n : Int)
  deriving DecidableEq, Repr, Inhabited

/-- The part of the library that an event comes from. -/
inductive Origin where
  | tool
  | service
  | caching
  | background
  | cacheLock
  deriving DecidableEq, Repr, Inhabited

/-- The name of the part, by which log filters know it. -/
def Origin.target : Origin → String
  | .tool => "engagement"
  | .service => "engagement::application::interactive::service"
  | .caching => "engagement::application::interactive::repository"
  | .background => "engagement::application::background"
  | .cacheLock => "engagement::cache::lock"

/-- A stretch of work with what it is about. -/
structure Span where
  origin : Origin
  name : String
  fields : List (String × String)
  deriving DecidableEq, Repr, Inhabited

/-- Something worth a line in the log. -/
structure Event where
  level : Level
  origin : Origin
  message : String
  fields : List (String × Field)
  /-- The work that it happened in, the outermost first. -/
  within : List Span := []
  deriving DecidableEq, Repr, Inhabited

/-- A counter of occurrences with its labels. -/
structure Metric where
  name : String
  labels : List (String × String) := []
  deriving DecidableEq, Repr, Inhabited

/-- The name with its labels in braces, if it has any. -/
def Metric.label (m : Metric) : String :=
  if m.labels.isEmpty then m.name
  else m.name ++ "\x7b" ++ ",".intercalate (m.labels.map fun l => l.1 ++ "=" ++ l.2) ++ "\x7d"

/-- One thing said. -/
inductive Report where
  | event (e : Event)
  | count (m : Metric)
  deriving DecidableEq, Repr, Inhabited

namespace Report

/-- The events among some reports. -/
def events (rs : List Report) : List Event :=
  rs.filterMap fun
    | .event e => some e
    | .count _ => none

/-- The metrics among some reports. -/
def metrics (rs : List Report) : List Metric :=
  rs.filterMap fun
    | .event _ => none
    | .count m => some m

end Report

end Popularity

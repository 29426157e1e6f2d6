import Popularity.Blank
import Popularity.Cache.Options
import Popularity.CommandLine.Basic
import Popularity.Settings.Tree
import Popularity.Threshold

/-!
# Settings

What the tool needs to know before it starts. All sources but the command line leave a `Draft`, in
which any setting may be missing; the command line prevails over it; the result is checked, and
missing settings get their standard values. A value is checked only where it has prevailed, and of
several bad ones the first in the order of `Draft.settle` is told.

## Main definitions

* `Settings`, `Draft`
* `Draft.override`, `Draft.settle`
* `LoadFailure`
-/

namespace Popularity

/-- How log lines look. -/
inductive LogFormat where
  | compact
  | json
  deriving DecidableEq, Repr, Inhabited

/-- Settings that have been checked. -/
structure Settings where
  threshold : Threshold
  format : LogFormat
  url : Option String
  maxConnections : Nat
  cacheEnabled : Bool
  /-- In seconds. -/
  lifetime : Nat
  capacity : Nat
  /-- The time limit of background jobs, in milliseconds. -/
  timeout : Nat
  deriving DecidableEq, Repr, Inhabited

/-- How to build the cache. -/
def Settings.cacheOptions (s : Settings) : Cache.Options :=
  ⟨s.cacheEnabled, 1000 * s.lifetime, s.capacity⟩

/-- Why the sources of settings could not be read. -/
inductive SourceFailure where
  | notFound (file : String)
  | unknownFormat (file : String)
  | malformed (file : String)
  /-- Some value is not of the sort that its setting needs. -/
  | mistyped
  deriving DecidableEq, Repr, Inhabited

/-- The failure in words. -/
def SourceFailure.message : SourceFailure → String
  | .notFound file => "configuration file \"" ++ file ++ "\" not found"
  | .unknownFormat file =>
    "configuration file \"" ++ file ++ "\" is not of a registered file format"
  | .malformed file => "malformed configuration in " ++ file
  | .mistyped => "invalid type"

/-- Why there are no settings. -/
inductive LoadFailure where
  | source (why : SourceFailure)
  | invalid (key reason : String)
  deriving DecidableEq, Repr, Inhabited

/-- The failure in words. -/
def LoadFailure.message : LoadFailure → String
  | .source why => "failed to build configuration: " ++ why.message
  | .invalid key reason => "invalid configuration for `" ++ key ++ "`: " ++ reason

/-- Settings that may be missing and have not been checked. -/
structure Draft where
  level : Option String := none
  json : Option Bool := none
  url : Option String := none
  /-- Below 2^32. -/
  maxConnections : Option Nat := none
  cacheEnabled : Option Bool := none
  lifetime : Option Nat := none
  capacity : Option Nat := none
  timeout : Option Nat := none
  deriving DecidableEq, Repr, Inhabited

namespace Draft

/-- The draft under the command line. -/
def override (d : Draft) (o : Overrides) : Draft where
  level := o.logLevel <|> d.level
  json := o.logJson <|> d.json
  url := o.databaseUrl <|> d.url
  maxConnections := o.maxConnections.map (·.toNat) <|> d.maxConnections
  cacheEnabled := o.cacheEnabled <|> d.cacheEnabled
  lifetime := d.lifetime
  capacity := d.capacity
  timeout := o.backgroundTimeout.map (·.toNat) <|> d.timeout

/-! ### Checks -/

/-- A positive number of 32 bits. -/
def positive32 (key : String) (n : Nat) : Except LoadFailure Nat :=
  if n = 0 then .error (.invalid key "must be greater than zero")
  else if Word.size32 ≤ n then .error (.invalid key "value exceeds supported range for u32")
  else .ok n

/-- A positive number. -/
def positive (key reason : String) (n : Nat) : Except LoadFailure Nat :=
  if n = 0 then .error (.invalid key reason) else .ok n

/-- The threshold of the log. -/
def threshold : Option String → Except LoadFailure Threshold
  | none => .ok ⟨some .info⟩
  | some s =>
    match Threshold.read? s with
    | some t => .ok t
    | none => .error (.invalid "logging.level" ("failed to parse: " ++ Threshold.misnamed))

/-- A text without blanks at its ends, if anything is left. -/
def nonblank (s : String) : Option String :=
  if (Blank.trim s).isEmpty then none else some (Blank.trim s)

/-- Checks the settings and fills in the standard values. -/
def settle (d : Draft) : Except LoadFailure Settings := do
  let threshold ← threshold d.level
  let maxConnections ← positive32 "database.max_connections" (d.maxConnections.getD 8)
  let lifetime ← positive32 "cache.ttl_seconds" (d.lifetime.getD 900)
  let capacity ← positive "cache.capacity" "must be greater than zero and fit in usize"
    (d.capacity.getD 10000)
  let timeout ← positive "background.timeout_ms" "must be greater than zero" (d.timeout.getD 3000)
  return { threshold, maxConnections, lifetime, capacity, timeout
           format := if d.json.getD false then .json else .compact
           url := d.url.bind nonblank
           cacheEnabled := d.cacheEnabled.getD true }

/-! ### From trees -/

/-- The value of one setting in its section, which is a table of named settings or a list of
settings in a fixed order; `none` if it is missing there. -/
def setting? (section_ : Tree) (name : String) (index : Nat) : Option Tree :=
  match section_ with
  | .table ms => ms.lookup name
  | .list es => es[index]?
  | _ => none

/-- A setting of some sort. What is blank is missing. -/
def wanted {α : Type} (as? : Tree → Option α) : Option Tree → Except SourceFailure (Option α)
  | none | some .blank => .ok none
  | some t =>
    match as? t with
    | some a => .ok (some a)
    | none => .error .mistyped

/-- A section of settings, where it is one. -/
def sectionOf (t : Tree) (name : String) : Except SourceFailure Tree :=
  match t.member? name with
  | none => .ok (.table [])
  | some (.table ms) => .ok (.table ms)
  | some (.list es) => .ok (.list es)
  | some _ => .error .mistyped

/-- The settings that a tree holds. -/
def ofTree (t : Tree) : Except SourceFailure Draft := do
  let logging ← sectionOf t "logging"
  let level ← wanted Tree.asText? (setting? logging "level" 0)
  let json ← wanted Tree.asBool? (setting? logging "json" 1)
  let database ← sectionOf t "database"
  let url ← wanted Tree.asText? (setting? database "url" 0)
  let maxConnections ← wanted Tree.asSmallCount? (setting? database "max_connections" 1)
  let cache ← sectionOf t "cache"
  let cacheEnabled ← wanted Tree.asBool? (setting? cache "enabled" 0)
  let lifetime ← wanted Tree.asCount? (setting? cache "ttl_seconds" 1)
  let capacity ← wanted Tree.asCount? (setting? cache "capacity" 2)
  let background ← sectionOf t "background"
  let timeout ← wanted Tree.asCount? (setting? background "timeout_ms" 0)
  return { level, json, url, maxConnections, cacheEnabled, lifetime, capacity, timeout }

end Draft

end Popularity

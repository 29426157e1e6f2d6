import Popularity.Item

/-!
# The command line

What the tool can be told to do: one command, and settings that take precedence over those from
files and the environment.

## Main definitions

* `Command`, `Overrides`, `Invocation`
* `UsageError` — what may be wrong with a command line
-/

namespace Popularity

/-- What the tool is to do. -/
inductive Command where
  /-- Makes the tables of the database. -/
  | migrate
  /-- Prints an item, as one user sees it if one is named. -/
  | showItem (i : Item) (user : Option Int64)
  | read (i : Item)
  | like (i : Item) (user : Int64)
  | unlike (i : Item) (user : Int64)
  | collect (i : Item) (user folder : Int64)
  | uncollect (i : Item) (user folder : Int64)
  /-- Prints several items of a kind. -/
  | stats (kind : String) (ids : List Int64)
  deriving DecidableEq, Repr, Inhabited

/-- Settings given on the command line. -/
structure Overrides where
  databaseUrl : Option String := none
  maxConnections : Option UInt32 := none
  logLevel : Option String := none
  logJson : Option Bool := none
  cacheEnabled : Option Bool := none
  /-- In milliseconds. -/
  backgroundTimeout : Option UInt64 := none
  deriving DecidableEq, Repr, Inhabited

/-- A command line that makes sense. -/
structure Invocation where
  command : Command
  /-- The path of a file with settings. -/
  configFile : Option String := none
  overrides : Overrides := {}
  deriving DecidableEq, Repr, Inhabited

/-- Why a command line leads to no command. The first two are what was asked for. -/
inductive UsageError where
  | help
  | version
  /-- There is nothing on the command line at all. -/
  | nothingGiven
  | missingCommand
  | unknownCommand
  | unknownArgument
  /-- An option has no value, or an empty one where that means nothing. -/
  | invalidValue
  /-- A value is not of the sort that its option takes. -/
  | malformedValue
  /-- A value was given to an option that takes none. -/
  | unneededValue
  /-- An option was given twice. -/
  | conflict
  | missingArgument
  deriving DecidableEq, Repr, Inhabited

/-- The exit code of the tool when it is used so. -/
def UsageError.exitCode : UsageError → Nat
  | .help | .version => 0
  | _ => 2

end Popularity

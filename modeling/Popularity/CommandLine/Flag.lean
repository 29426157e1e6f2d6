import Popularity.CommandLine.Basic
import Popularity.Word

/-!
# Options of the command line

An option has a long name and takes one value. Some go with every command and may stand on either
side of the command's name; the others belong to single commands.

## Main definitions

* `Flag`, `Flag.long`, `Flag.isGlobal`
* `Verb` — the name of a command, and the options that go with it
* `Given`, `Given.take` — the values of options, as they are met
-/

namespace Popularity

/-- An option. -/
inductive Flag where
  | configFile
  | databaseUrl
  | maxConnections
  | logLevel
  | logJson
  | cacheEnabled
  | backgroundTimeout
  | kind
  | id
  | user
  | folder
  | ids
  deriving DecidableEq, Repr, Inhabited

namespace Flag

/-- The options that go with every command. -/
def globals : List Flag :=
  [.configFile, .databaseUrl, .maxConnections, .logLevel, .logJson, .cacheEnabled,
    .backgroundTimeout]

/-- The option's name, which two dashes come before. -/
def long : Flag → String
  | .configFile => "config-file"
  | .databaseUrl => "database-url"
  | .maxConnections => "database-max-connections"
  | .logLevel => "log-level"
  | .logJson => "log-json"
  | .cacheEnabled => "cache-enabled"
  | .backgroundTimeout => "background-timeout-ms"
  | .kind => "biz"
  | .id => "biz-id"
  | .user => "uid"
  | .folder => "cid"
  | .ids => "ids"

end Flag

/-- The name of a command. -/
inductive Verb where
  | migrate
  | showItem
  | read
  | like
  | unlike
  | collect
  | uncollect
  | stats
  deriving DecidableEq, Repr, Inhabited

namespace Verb

/-- All names. -/
def all : List Verb :=
  [.migrate, .showItem, .read, .like, .unlike, .collect, .uncollect, .stats]

/-- The name as it is written. -/
def word : Verb → String
  | .migrate => "migrate"
  | .showItem => "show"
  | .read => "read"
  | .like => "like"
  | .unlike => "unlike"
  | .collect => "collect"
  | .uncollect => "uncollect"
  | .stats => "stats"

/-- The command of a given `word`. -/
def ofWord? (s : String) : Option Verb := all.find? (·.word == s)

/-- The options of the command itself. -/
def flags : Verb → List Flag
  | .migrate => []
  | .showItem => [.kind, .id, .user]
  | .read => [.kind, .id]
  | .like | .unlike => [.kind, .id, .user]
  | .collect | .uncollect => [.kind, .id, .user, .folder]
  | .stats => [.kind, .ids]

end Verb

/-- The values of options that have been met, at one side of the command's name. -/
structure Given where
  configFile : Option String := none
  databaseUrl : Option String := none
  maxConnections : Option UInt32 := none
  logLevel : Option String := none
  logJson : Option Bool := none
  cacheEnabled : Option Bool := none
  backgroundTimeout : Option UInt64 := none
  kind : Option String := none
  id : Option Int64 := none
  user : Option Int64 := none
  folder : Option Int64 := none
  ids : Option (List Int64) := none
  deriving DecidableEq, Repr, Inhabited

namespace Given

/-- Whether an option has been met. -/
def has (g : Given) : Flag → Bool
  | .configFile => g.configFile.isSome
  | .databaseUrl => g.databaseUrl.isSome
  | .maxConnections => g.maxConnections.isSome
  | .logLevel => g.logLevel.isSome
  | .logJson => g.logJson.isSome
  | .cacheEnabled => g.cacheEnabled.isSome
  | .backgroundTimeout => g.backgroundTimeout.isSome
  | .kind => g.kind.isSome
  | .id => g.id.isSome
  | .user => g.user.isSome
  | .folder => g.folder.isSome
  | .ids => g.ids.isSome

/-! ### Values -/

/-- A 64-bit number. -/
def readWord? (s : String) : Option Int64 := (Decimal.readSigned? s.toList).bind Word.ofInt?

/-- An unsigned 32-bit number. It may have a sign as long as it is in range, so a zero may be
negative. -/
def readCount? (s : String) : Option UInt32 :=
  (Decimal.readSigned? s.toList).bind fun n =>
    if 0 ≤ n ∧ n < Word.size32 then some (UInt32.ofNat n.toNat) else none

/-- An unsigned 64-bit number, without a minus sign. -/
def readTime? (s : String) : Option UInt64 :=
  (Decimal.readUnsigned? s.toList).bind fun n =>
    if n < Word.size64 then some (UInt64.ofNat n) else none

/-- The words for true, in lower case. -/
def yes : List String := ["y", "yes", "t", "true", "on", "1"]

/-- The words for false, in lower case. -/
def no : List String := ["n", "no", "f", "false", "off", "0"]

/-- A truth value in any case. -/
def readBool? (s : String) : Option Bool :=
  if yes.contains s.toLower then some true
  else if no.contains s.toLower then some false
  else none

/-- Several 64-bit numbers with commas between them. -/
def readWords? (s : String) : Option (List Int64) :=
  (s.toList.splitOn ',').mapM fun cs => readWord? (String.ofList cs)

/-- The path of a file, which is not empty. -/
def readPath (s : String) : Except UsageError String :=
  if s.isEmpty then .error .invalidValue else .ok s

/-- A value of the right sort. -/
def wellFormed {α : Type} : Option α → Except UsageError α
  | some a => .ok a
  | none => .error .malformedValue

/-- Takes up the value of an option. Lists of ids add up; any other option stands once. -/
def take (g : Given) (f : Flag) (value : String) : Except UsageError Given :=
  if f ≠ .ids && g.has f then .error .conflict
  else match f with
    | .configFile => do return { g with configFile := ← readPath value }
    | .databaseUrl => .ok { g with databaseUrl := value }
    | .maxConnections => do return { g with maxConnections := ← wellFormed (readCount? value) }
    | .logLevel => .ok { g with logLevel := value }
    | .logJson => do return { g with logJson := ← wellFormed (readBool? value) }
    | .cacheEnabled => do return { g with cacheEnabled := ← wellFormed (readBool? value) }
    | .backgroundTimeout => do
      return { g with backgroundTimeout := ← wellFormed (readTime? value) }
    | .kind => .ok { g with kind := value }
    | .id => do return { g with id := ← wellFormed (readWord? value) }
    | .user => do return { g with user := ← wellFormed (readWord? value) }
    | .folder => do return { g with folder := ← wellFormed (readWord? value) }
    | .ids => do return { g with ids := g.ids.getD [] ++ (← wellFormed (readWords? value)) }

/-- The command that the options complete, if none is missing. -/
def command? (g : Given) : Verb → Option Command
  | .migrate => some .migrate
  | .showItem => do return .showItem ⟨← g.kind, ← g.id⟩ g.user
  | .read => do return .read ⟨← g.kind, ← g.id⟩
  | .like => do return .like ⟨← g.kind, ← g.id⟩ (← g.user)
  | .unlike => do return .unlike ⟨← g.kind, ← g.id⟩ (← g.user)
  | .collect => do return .collect ⟨← g.kind, ← g.id⟩ (← g.user) (← g.folder)
  | .uncollect => do return .uncollect ⟨← g.kind, ← g.id⟩ (← g.user) (← g.folder)
  | .stats => do return .stats (← g.kind) (← g.ids)

/-- The settings on both sides of the command's name; those after it prevail. -/
def overrides (before after : Given) : Overrides where
  databaseUrl := after.databaseUrl <|> before.databaseUrl
  maxConnections := after.maxConnections <|> before.maxConnections
  logLevel := after.logLevel <|> before.logLevel
  logJson := after.logJson <|> before.logJson
  cacheEnabled := after.cacheEnabled <|> before.cacheEnabled
  backgroundTimeout := after.backgroundTimeout <|> before.backgroundTimeout

end Given

end Popularity

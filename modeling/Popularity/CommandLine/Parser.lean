import Popularity.CommandLine.Flag

/-!
# Reading the command line

Arguments are read from left to right, first those before the command's name and then those after
it. An option's value stands behind an equals sign or is the next argument, as long as that does not
look like an option itself. A value is looked at only when the next option comes or the arguments
end, so of several faults it may not be the first that is told.

## Main definitions

* `Scan` — one side of the command's name, half read
* `Invocation.parse` — a whole command line
-/

namespace Popularity

/-- One side of the command's name, read up to some argument. -/
structure Scan where
  given : Given := {}
  /-- The last option, if its value has not been looked at, and that value, if it has come. -/
  pending : Option (Flag × Option String) := none
  deriving Repr, Inhabited

namespace Scan

/-- Whether the next argument may be the value of the last option. -/
def awaits (s : Scan) : Bool := s.pending.any (·.2.isNone)

/-- Looks at the value of the last option. -/
def resolve (s : Scan) : Except UsageError Scan :=
  match s.pending with
  | none => .ok s
  | some (_, none) => .error .invalidValue
  | some (f, some value) => do return { given := ← s.given.take f value }

/-- An argument as it looks. -/
inductive Shape where
  /-- Two dashes alone. -/
  | divider
  /-- A name after two dashes, with what stands behind an equals sign. -/
  | long (name : String) (value : Option String)
  /-- A letter after one dash. -/
  | short (letter : Char)
  | plain
  deriving DecidableEq, Repr, Inhabited

/-- How an argument looks. A dash alone is plain. -/
def shape (arg : String) : Shape :=
  match arg.toList with
  | ['-', '-'] => .divider
  | '-' :: '-' :: cs =>
    match cs.span (· ≠ '=') with
    | (name, []) => .long (String.ofList name) none
    | (name, _ :: value) => .long (String.ofList name) (some (String.ofList value))
  | '-' :: c :: _ => .short c
  | _ => .plain

/-- Meets an option by its long name, among those that are known. -/
def meetLong (s : Scan) (known : List Flag) (name : String) (value : Option String) :
    Except UsageError Scan :=
  match known.find? (·.long == name) with
  | none => .error .unknownArgument
  | some f => do
    let s ← s.resolve
    match value with
    | some v => return { given := ← s.given.take f v }
    | none => return { s with pending := some (f, none) }

/-- Ends with `why`, unless the last option's value is at fault. -/
def leave (s : Scan) (why : UsageError) : Except UsageError Scan := do
  let _ ← s.resolve
  throw why

/-- Meets something that asks for help or the version; `versioned` says whether the version may be
asked for here. -/
def meetRequest? (s : Scan) (versioned : Bool) : Shape → Option (Except UsageError Scan)
  | .long "help" none => some (s.leave .help)
  | .long "help" (some _) => some (.error .unneededValue)
  | .short 'h' => some (s.leave .help)
  | .long "version" none => if versioned then some (s.leave .version) else none
  | .long "version" (some _) => if versioned then some (.error .unneededValue) else none
  | .short 'V' => if versioned then some (s.leave .version) else none
  | _ => none

/-- Reads one argument that is neither a divider nor the name of a command. A plain one that no
option waits for is at fault as `stray` says. -/
def meet (s : Scan) (known : List Flag) (versioned : Bool) (stray : UsageError) (arg : String) :
    Except UsageError Scan :=
  match s.meetRequest? versioned (shape arg) with
  | some result => result
  | none =>
    match shape arg with
    | .long name value => s.meetLong known name value
    | .short _ => .error .unknownArgument
    | .plain | .divider =>
      match s.pending with
      | some (f, none) => .ok { s with pending := some (f, some arg) }
      | _ => .error stray

/-! ### After the command's name -/

/-- Reads the arguments after the name of a command. -/
def after (verb : Verb) (s : Scan) : List String → Except UsageError Given
  | [] => do return (← s.resolve).given
  | arg :: args =>
    if shape arg = .divider then
      if args.isEmpty then do return (← s.resolve).given else .error .unknownArgument
    else do after verb (← s.meet (Flag.globals ++ verb.flags) false .unknownArgument arg) args

/-! ### Before the command's name -/

/-- Whether an argument can stand where the name of a command can. -/
def namesCommand (arg : String) : Bool := (Verb.ofWord? arg).isSome || arg = "help"

/-- What is asked for by the word `help`: there is help on the whole and on each command. -/
def helpOn : List String → UsageError
  | [] => .help
  | [arg] => if namesCommand arg then .help else .unknownCommand
  | _ => .unknownCommand

/-- What is found before the arguments end: the name of a command with the arguments after it, or
none. -/
abbrev Found : Type := Scan × Option (Verb × List String)

/-- Reads the arguments up to the name of a command. -/
def before (s : Scan) : List String → Except UsageError Found
  | [] => .ok (s, none)
  | arg :: args =>
    match if s.awaits then none else Verb.ofWord? arg with
    | some verb => .ok (s, some (verb, args))
    | none =>
      if !s.awaits && arg = "help" then .error (helpOn args)
      else if shape arg = .divider then
        match args with
        | [] => .ok (s, none)
        | next :: _ => .error (if namesCommand next then .unknownArgument else .unknownCommand)
      else do before (← s.meet Flag.globals true .unknownCommand arg) args

end Scan

namespace Invocation

/-- The path from the environment, where no path is given. -/
def pathOr (g : Given) (ambient : Option String) : Except UsageError (Option String) :=
  match g.configFile, ambient with
  | some _, _ | none, none => .ok none
  | none, some path => do return some (← Given.readPath path)

/-- Reads a command line. The path of the file with settings may also come from the environment. -/
def parse (args : List String) (ambient : Option String) : Except UsageError Invocation := do
  match ← Scan.before {} args with
  | (s, none) =>
    let s ← s.resolve
    let path ← pathOr s.given ambient
    if s.given = {} && path.isNone then throw .nothingGiven else throw .missingCommand
  | (s, some (verb, args)) =>
    let after ← Scan.after verb {} args
    let path ← pathOr after ambient
    match after.command? verb with
    | none => throw .missingArgument
    | some command =>
      let before := (← s.resolve).given
      let _ ← pathOr before ambient
      return { command, overrides := before.overrides after,
               configFile := after.configFile <|> before.configFile <|> path }

end Invocation

end Popularity

import Popularity.CommandLine.Parser
import Popularity.Database.Address
import Popularity.Log.Line
import Popularity.Settings.Source
import Popularity.Tool.Reply

/-!
# Runs of the tool

One run does one command. It reads the command line and the settings, opens the database, does the
command with an empty cache, and waits for the background before it ends, but not longer than two
jobs may take. Whatever fails first ends the run: its words are logged last and its cause gives the
exit code.

A run that does not get its settings has no say in how its log looks: its failure is always logged,
and as a compact line.

## Main definitions

* `Tool.attend` — a call, on a server, for settings
* `Tool.serve` — a command for settings
* `Tool.run` — a command line
-/

namespace Popularity.Tool

/-! ### Calls -/

/-- What is said of jobs that are left at the end. -/
def abandoned (inflight : Nat) : Report :=
  .event { level := .warn, origin := .tool, message := "background tasks still running at exit",
           fields := [("inflight", .int inflight)] }

/-- The longest time span that can be told: 2^64 - 1 seconds and a fraction. -/
def longestSpan : Nat := (Word.size64 - 1) * 1000 + 999

/-- How long a run waits for jobs with a time limit, if that can be told. -/
def patience (limit : Nat) : Except Crash Nat :=
  if longestSpan < 2 * limit then .error .spanOverflow else .ok (2 * limit)

variable {C : Type} [CacheKind C]

/-- Says something. -/
def say (rs : List Report) : Act Server C Unit := Action.onWorld fun w => ((), w.tell rs)

/-- Waits for the background, but not for ever. -/
def awaitJobs : Act Server C Unit := do
  let idle ← Action.waitIdleWithin (← patience (← get).1.limit)
  if !idle then say [abandoned (← get).1.inflight]

/-- Makes a call, says what came of it, and waits for the background. -/
def attend (c : Call Reply) : Act Server C (Except CallFailure Reply) := do
  let result ← Server.site.call c
  if let .ok reply := result then say reply.reports
  awaitJobs
  return result

/-- The scene of a run: nothing is cached, and no job is left. -/
def scene (s : Settings) (v : Server) : Scene Server :=
  ({ limit := s.timeout }, { store := v, cache := s.cacheOptions.build? })

/-! ### Commands -/

/-- What a command came to. -/
structure Served where
  result : Except ToolFailure (Option String)
  reports : List Report := []
  host : Host

/-- Ends in a failure. -/
def refuse (why : ToolFailure) (h : Host) : Served := { result := .error why, host := h }

/-- Makes a call on a server. -/
def serveCall (s : Settings) (c : Call Reply) (h : Host) : Served :=
  let (result, _, w) := ((attend c).run (scene s h.server)).run
  { reports := w.reports
    host := { h with server := w.store }
    result := match result with
      | .ok (.ok reply) => .ok reply.output
      | .ok (.error why) => .error (.call why)
      | .error crash => .error (.unexpected crash.message) }

/-- Makes the tables. -/
def serveMigrate (h : Host) : Served :=
  match h.server.migrate with
  | (.ok (), v) =>
    { result := .ok none
      reports := (Reply.noted "migrations applied" []).reports
      host := { h with server := v } }
  | (.error why, v) =>
    refuse (.setup (.database (Server.migrationFailure why))) { h with server := v }

/-- Does a command. -/
def serve (s : Settings) (c : Command) (h : Host) : Served :=
  match s.url with
  | none => refuse (.setup (.configuration "database url is not configured")) h
  | some url =>
    match h.reach url with
    | (.error why, h) => refuse (.setup (.database why.message)) h
    | (.ok (), h) =>
      match c.call? with
      | none => serveMigrate h
      | some call => serveCall s call h

/-! ### Command lines -/

/-- What a run leaves behind, the database apart. -/
structure Outcome where
  exitCode : Nat
  log : List LogLine := []
  /-- What it prints. -/
  output : Option String := none
  deriving Repr, Inhabited

/-- What is said of a failure. -/
def failed (why : ToolFailure) : Event :=
  { level := .error, origin := .tool, message := "application error",
    fields := [("error", .shown why.message)] }

/-- The name and the number of the tool. -/
def version : String := "engagement 0.1.0"

/-- What is printed for a command line that leads to no command. -/
def usage : UsageError → Option String
  | .version => some version
  | .help => some "Usage: engagement [OPTIONS] <COMMAND>"
  | _ => none

/-- The failure to get settings. -/
def unsettled (why : LoadFailure) : ToolFailure :=
  .validation ("failed to load configuration: " ++ why.message)

/-- Which events are logged. A filter in the environment takes the place of the settings. -/
def filter (settings : Settings) (s : Surroundings) : LogFilter :=
  ((s.environment.lookup "RUST_LOG").bind LogFilter.ofText?).getD (.uniform settings.threshold)

/-- Ends a run. -/
def finish (line : Event → Option LogLine) (v : Served) : Outcome :=
  let events := Report.events v.reports
  match v.result with
  | .ok output => { exitCode := 0, log := events.filterMap line, output }
  | .error why => { exitCode := why.exitCode, log := (events ++ [failed why]).filterMap line }

/-- Runs the tool. -/
def run (args : List String) (s : Surroundings) (h : Host) : Outcome × Host :=
  match Invocation.parse args s.configFile? with
  | .error e => ({ exitCode := e.exitCode, output := usage e }, h)
  | .ok i =>
    match s.load i with
    | .error why =>
      (finish (LogLine.ofEvent? .compact (.uniform ⟨some .error⟩)) (refuse (unsettled why) h), h)
    | .ok settings =>
      let v := serve settings i.command h
      (finish (LogLine.ofEvent? settings.format (filter settings s)) v, v.host)

end Popularity.Tool

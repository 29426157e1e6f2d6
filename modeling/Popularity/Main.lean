import Popularity.Tool.Run

/-!
# The command line program

Collects the command line, the environment and the files with settings, does one run of the tool,
and prints what it leaves behind. The database lives in memory, at an address of its own, and has
its tables from the start.
-/

namespace Popularity.Tool

/-- The variables that the tool looks at. -/
def variableNames : List String :=
  ["ENGAGEMENT_CONFIG_FILE", "RUST_LOG", "ENGAGEMENT__LOGGING__LEVEL", "ENGAGEMENT__LOGGING__JSON",
    "ENGAGEMENT__DATABASE__URL", "ENGAGEMENT__DATABASE__MAX_CONNECTIONS",
    "ENGAGEMENT__CACHE__ENABLED", "ENGAGEMENT__CACHE__TTL_SECONDS", "ENGAGEMENT__CACHE__CAPACITY",
    "ENGAGEMENT__BACKGROUND__TIMEOUT_MS"]

/-- The paths that files with settings may have. -/
def settingsPaths (args : List String) (environment : List (String × String)) : List String :=
  let named := match Invocation.parse args (Surroundings.configFile? { environment }) with
    | .ok i => i.configFile.toList
    | .error _ => []
  (["config/default", "engagement"] ++ named).flatMap fun path =>
    path :: [SettingsFormat.toml, .json].map fun f => path ++ "." ++ f.ending

/-- The text of a file that can be read. -/
def readFile? (path : String) : IO (Option String) := do
  try return some (← IO.FS.readFile path)
  catch _ => return none

/-- What the program finds around it. -/
def surroundings (args : List String) : IO Surroundings := do
  let environment ← variableNames.filterMapM fun name => do
    return (← IO.getEnv name).map (name, ·)
  let files ← (settingsPaths args environment).filterMapM fun path => do
    return (← readFile? path).map (Surroundings.plainPath path, ·)
  return { files, environment }

/-- A database in memory. -/
def memory : Host := { address := "memory:", server := {} }

end Popularity.Tool

/-- Does one run. -/
def main (args : List String) : IO UInt32 := do
  let (outcome, _) := Popularity.Tool.run args (← Popularity.Tool.surroundings args)
    Popularity.Tool.memory
  for line in outcome.log do IO.println line.text
  if let some output := outcome.output then IO.println output
  return UInt32.ofNat outcome.exitCode

import Popularity.Json.Reader
import Popularity.Settings.Basic
import Popularity.Settings.Place
import Popularity.Toml.Document
import Popularity.Word

/-!
# Sources of settings

Settings come from two files with fixed names, which need not exist, from a file that the command
line may name, which must, from the environment, and from the command line. Each source prevails
over those before it.

## Main definitions

* `Surroundings` — files and variables
* `Surroundings.treeOf`, `Surroundings.load`
-/

namespace Popularity

/-- What a run of the tool finds: the files below its directory, by their paths, and the variables
of its environment. -/
structure Surroundings where
  files : List (String × String) := []
  environment : List (String × String) := []
  deriving Repr, Inhabited

/-! ### JSON -/

namespace Tree

/-- A number in JSON, written with or without a point. Those too large for a float are refused. -/
def ofNumber? (written : List Char) : Option Tree :=
  match (Decimal.readSigned? written).bind Word.ofInt? with
  | some n => if n = 0 ∧ written.head? = some '-' then some (.float (.finite true 0 (-1074)))
    else some (.int n.toInt)
  | none =>
    let (negative, cs) := match written with
      | '-' :: cs => (true, cs)
      | cs => (false, cs)
    let (mantissa, power) := cs.span fun c => c ≠ 'e' && c ≠ 'E'
    let (front, point) := mantissa.span (· ≠ '.')
    let places := point.drop 1
    let e := (Decimal.readSigned? (power.drop 1)).getD 0
    match Binary64.ofDecimal negative (Decimal.value (front ++ places)) (e - places.length) with
    | .infinite _ => none
    | x => some (.float x)

mutual

/-- The tree of a JSON value, down to a depth. -/
def ofJson? (depth : Nat) : Json → Option Tree
  | .null => some .blank
  | .bool b => some (.bool b)
  | .number w => ofNumber? w
  | .string s => s.map .text
  | .array vs =>
    match depth with
    | 0 => none
    | depth + 1 => (elementsOfJson? depth vs).map .list
  | .object ms =>
    match depth with
    | 0 => none
    | depth + 1 => (membersOfJson? depth [] ms).map .table

/-- The trees of elements. -/
def elementsOfJson? (depth : Nat) : List Json → Option (List Tree)
  | [] => some []
  | v :: vs => do return (← ofJson? depth v) :: (← elementsOfJson? depth vs)

/-- The trees of members, of which the last of a name counts. -/
def membersOfJson? (depth : Nat) (found : List (String × Tree)) :
    List (Option String × Json) → Option (List (String × Tree))
  | [] => some found
  | (name, v) :: ms => do
    let v ← ofJson? depth v
    membersOfJson? depth (putMember found (← name) v) ms

end

end Tree

/-! ### Files -/

/-- The formats of files with settings. -/
inductive SettingsFormat where
  | toml
  | json
  deriving DecidableEq, Repr, Inhabited

namespace SettingsFormat

/-- How many lists and tables may be inside each other in JSON. -/
def depth : Nat := 127

/-- The end of the names of files of a format. -/
def ending : SettingsFormat → String
  | .toml => "toml"
  | .json => "json"

/-- The settings that a text holds; they are in a table. A byte order mark is left out. -/
def read? (f : SettingsFormat) (text : String) : Option (List (String × Tree)) :=
  let text := match text.toList with
    | '\uFEFF' :: cs => String.ofList cs
    | cs => String.ofList cs
  match f with
  | .toml => Toml.read? text
  | .json =>
    match (Json.read? text).bind (Tree.ofJson? depth) with
    | some (.table ms) => some ms
    | _ => none

end SettingsFormat

namespace Surroundings

/-- A path without the parts that say nothing. -/
def plainPath (path : String) : String :=
  "/".intercalate ((path.splitOn "/").filter fun p => p ≠ "" && p ≠ ".")

/-- The text of a file. -/
def file? (s : Surroundings) (path : String) : Option String :=
  s.files.lookup (plainPath path)

/-- The format of a file, by the end of its name behind the last point. -/
def formatOf? (path : String) : Option SettingsFormat :=
  let name := ((path.splitOn "/").getLast?).getD ""
  match (name.splitOn ".").reverse with
  | ending :: first :: rest =>
    if rest.isEmpty ∧ first = "" then none
    else [SettingsFormat.toml, .json].find? (·.ending = ending)
  | _ => none

/-- The file that a name means: the file of that very name, or else with the end of a format. -/
def find (s : Surroundings) (name : String) : Except SourceFailure (SettingsFormat × String) :=
  match s.file? name with
  | some text =>
    match formatOf? name with
    | some f => .ok (f, text)
    | none => .error (.unknownFormat name)
  | none =>
    let tries := [SettingsFormat.toml, .json].filterMap fun f =>
      (s.file? (name ++ "." ++ f.ending)).map (f, ·)
    match tries with
    | found :: _ => .ok found
    | [] => .error (.notFound name)

/-- The settings in the file that a name means. -/
def source (s : Surroundings) (name : String) : Except SourceFailure (List (String × Tree)) := do
  let (f, text) ← s.find name
  match f.read? text with
  | some ms => return ms
  | none => throw (.malformed name)

/-- The settings in a file that need not exist. -/
def optionalSource (s : Surroundings) (name : String) :
    Except SourceFailure (List (String × Tree)) :=
  match s.find name with
  | .ok _ => s.source name
  | .error _ => .ok []

/-! ### Variables -/

/-- What the names of variables with settings start with, in any case. -/
def opening : List Char := "engagement__".toList

/-- A name in which a pair of underscores stands for a point. -/
def pointed : List Char → List Char
  | '_' :: '_' :: cs => '.' :: pointed cs
  | c :: cs => c :: pointed cs
  | [] => []

/-- The setting that a variable gives. -/
def settingOf? (v : String × String) : Option (String × Tree) :=
  let name := v.1.toLower.toList
  if opening.isPrefixOf name then
    some (String.ofList (pointed (name.drop opening.length)), .text v.2)
  else none

/-- The settings in the environment. -/
def fromVariables (s : Surroundings) : List (String × Tree) := s.environment.filterMap settingOf?

/-! ### All sources -/

/-- What all sources but the command line say together. -/
def treeOf (s : Surroundings) (file : Option String) : Except SourceFailure Tree := do
  let standard ← s.optionalSource "config/default"
  let own ← s.optionalSource "engagement"
  let named ← match file with
    | some file => s.source file
    | none => .ok []
  return [standard, own, named, s.fromVariables].foldl Tree.layer (.table [])

/-- The settings for a command line. -/
def load (s : Surroundings) (i : Invocation) : Except LoadFailure Settings := do
  match s.treeOf i.configFile >>= Draft.ofTree with
  | .ok d => (d.override i.overrides).settle
  | .error why => throw (.source why)

/-- The path of the file with settings that the environment names. -/
def configFile? (s : Surroundings) : Option String := s.environment.lookup "ENGAGEMENT_CONFIG_FILE"

end Surroundings

end Popularity

import Popularity.Json.Basic
import Popularity.Log.Filter
import Popularity.Quoted
import Popularity.Settings.Basic

/-!
# Log lines

An event as it is written into the log. A JSON line keeps the parts of the event apart. A compact
line is one text: the work that the event happened in, where it comes from, its message, its fields,
and what that work was about, the innermost first.

## Main definitions

* `LogLine`, `LogLine.ofEvent?`
* `LogLine.text` — the line as it is printed
-/

namespace Popularity

/-- An event in the log. -/
inductive LogLine where
  | compact (level : Level) (words : String)
  | json (level : Level) (target message : String) (fields : List (String × Field))
  deriving DecidableEq, Repr, Inhabited

/-- The value as it stands in a compact line. -/
def Field.words : Field → String
  | .shown s => s
  | .text s => Quoted.text s
  | .int n => Decimal.text n

/-- The value as it stands in a JSON line. -/
def Field.toJson : Field → Json
  | .shown s | .text s => .text s
  | .int n => .int n

namespace LogLine

/-- A name with a value. -/
def pair (name value : String) : String := name ++ "=" ++ value

/-- The names of the work, the outermost first. -/
def opening : List Span → String
  | [] => ""
  | work => String.join (work.map fun w => w.name ++ ":") ++ " "

/-- What the work was about. -/
def about (w : Span) : String := " ".intercalate (w.fields.map fun f => pair f.1 f.2)

/-- The words of a compact line for an event in some work. -/
def words (work : List Span) (e : Event) : String :=
  opening work ++ e.origin.target ++ ": "
    ++ " ".intercalate (e.message :: (e.fields.map (fun f => pair f.1 f.2.words)
      ++ work.reverse.map about))

/-- The line for an event, if it is to be logged. -/
def ofEvent? (format : LogFormat) (filter : LogFilter) (e : Event) : Option LogLine :=
  if filter.admits e.origin e.level then
    some <| match format with
      | .compact => .compact e.level (words (e.within.filter (filter.admitsWork ·.origin)) e)
      | .json => .json e.level e.origin.target e.message e.fields
  else none

/-- The line as it is printed. -/
def text : LogLine → String
  | .compact level words => level.name ++ " " ++ words
  | .json level target message fields =>
    (Json.record [("level", .text level.name),
      ("fields", .record (("message", .text message) :: fields.map fun f => (f.1, f.2.toJson))),
      ("target", .text target)]).compactText

end LogLine

end Popularity

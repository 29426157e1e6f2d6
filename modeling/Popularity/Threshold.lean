import Popularity.Decimal.Basic
import Popularity.Report

/-!
# Log thresholds

How loud an event must be to be logged.

## Main definitions

* `Threshold`, `Threshold.admits`
* `Threshold.read?`
-/

namespace Popularity

/-- The least grave level that is logged; `none` if nothing is. -/
structure Threshold where
  level : Option Level
  deriving DecidableEq, Repr, Inhabited

namespace Threshold

/-- Whether events of a level are logged. -/
def admits (t : Threshold) (l : Level) : Bool := t.level.any fun least => l.rank ≤ least.rank

/-- All thresholds with their names; their places are their numbers. -/
def named : List (String × Threshold) :=
  [("off", ⟨none⟩), ("error", ⟨some .error⟩), ("warn", ⟨some .warn⟩), ("info", ⟨some .info⟩),
    ("debug", ⟨some .debug⟩), ("trace", ⟨some .trace⟩)]

/-- The threshold's name. -/
def name (t : Threshold) : String := ((named.find? (·.2 = t)).map (·.1)).getD ""

/-- A threshold by its number, or by its name in any case. No name at all means errors. -/
def read? (s : String) : Option Threshold :=
  match (Decimal.readUnsigned? s.toList).bind fun n => named[n]? with
  | some t => some t.2
  | none => if s.isEmpty then some ⟨some .error⟩ else named.lookup s.toLower

/-- The words for a text that names no threshold. -/
def misnamed : String :=
  "error parsing level filter: expected one of \"off\", \"error\", \"warn\", \"info\", \"debug\", "
    ++ "\"trace\", or a number 0-5"

end Threshold

end Popularity

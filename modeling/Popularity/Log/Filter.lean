import Popularity.Report
import Popularity.Threshold

/-!
# Log filters

A filter is a list of directives, each a threshold for the parts whose targets start with some
text. The most specific directive for a part decides, which is the one with the longest start; of
two that are alike the later counts. A part that no directive is about is not logged.

A filter is written as directives between commas: `info`, `engagement::cache=debug`. A word that is
no threshold stands for all events of a part. Directives that cannot be read are left out.

## Main definitions

* `Directive`, `LogFilter`
* `LogFilter.admits`, `LogFilter.admitsWork`
* `LogFilter.ofText?` — reads a filter
-/

namespace Popularity

/-- A threshold for some parts of the library. -/
structure Directive where
  /-- What the targets of those parts start with. -/
  opening : String
  threshold : Threshold
  deriving DecidableEq, Repr, Inhabited

namespace Directive

/-- Whether a directive is about a part. -/
def concerns (d : Directive) (o : Origin) : Bool := d.opening.toList.isPrefixOf o.target.toList

/-- Letters, digits and the marks that targets are made of. -/
def isTargetChar (c : Char) : Bool := c.isAlphanum || c = '_' || c = '-' || c = ':'

/-- Reads a directive. -/
def ofText? (s : String) : Option Directive :=
  match s.splitOn "=" with
  | [word] =>
    match Threshold.read? word with
    | some t => some ⟨"", t⟩
    | none => if word.all isTargetChar then some ⟨word, ⟨some .trace⟩⟩ else none
  | [target, level] =>
    if target.isEmpty || !target.all isTargetChar then none
    else if level.isEmpty then some ⟨target, ⟨some .trace⟩⟩
    else (Threshold.read? level).map (⟨target, ·⟩)
  | _ => none

end Directive

/-- Which events are logged. -/
structure LogFilter where
  directives : List Directive
  deriving DecidableEq, Repr, Inhabited

namespace LogFilter

/-- One threshold for everything. -/
def uniform (t : Threshold) : LogFilter := ⟨[⟨"", t⟩]⟩

/-- The more specific of two directives; the second if they are alike. -/
def sharper (a : Option Directive) (b : Directive) : Option Directive :=
  match a with
  | some a => if b.opening.length < a.opening.length then some a else some b
  | none => some b

/-- The directive that decides about a part. -/
def decisive? (f : LogFilter) (o : Origin) : Option Directive :=
  (f.directives.filter (·.concerns o)).foldl sharper none

/-- Whether events of a level from a part are logged. -/
def admits (f : LogFilter) (o : Origin) (l : Level) : Bool :=
  (f.decisive? o).any (·.threshold.admits l)

/-- Whether it is logged in which work of a part an event happened. -/
def admitsWork (f : LogFilter) (o : Origin) : Bool := f.admits o .info

/-- Reads a filter; `none` if the text has no directive. -/
def ofText? (s : String) : Option LogFilter :=
  let parts := (s.splitOn ",").filter (!·.isEmpty)
  match parts.filterMap Directive.ofText? with
  | [] => none
  | ds => some ⟨ds⟩

end LogFilter

end Popularity

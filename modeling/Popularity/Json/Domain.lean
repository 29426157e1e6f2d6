import Popularity.Json.Reader
import Popularity.Mark
import Popularity.Summary
import Popularity.Word

/-!
# Items, counters and summaries as JSON

Writing fixes the order of members. Reading an item asks for its two members by name, in any
order and among any others, or for a list of exactly the two; a name that repeats makes the item
ambiguous and is refused. Counters and standings are read from their names, alone or as the only
member of an object with nothing in it.

## Main definitions

* `Item.toJson`, `Item.ofJson?`, `Item.read?`
* `Counter.toJson`, `Counter.ofJson?`; `Standing.toJson`, `Standing.ofJson?`
* `Counts.toJson`, `Summary.toJson`
-/

namespace Popularity

namespace Json

/-- A whole 64-bit number: no point, no power of ten, and zero without a sign. -/
def word? : Json → Option Int64
  | .number w => if w = ['-', '0'] then none else (Decimal.readSigned? w).bind Word.ofInt?
  | _ => none

/-- The text of a string. -/
def text? : Json → Option String
  | .string s => s
  | _ => none

/-- The only member of a given name. -/
def only? (name : String) (members : List (Option String × Json)) : Option Json :=
  match members.filter (·.1 = some name) with
  | [(_, v)] => some v
  | _ => none

/-- A bare name: a string, or an object whose only member has the name and holds nothing. -/
def bareName? : Json → Option String
  | .string s => s
  | .object [(s, .null)] => s
  | _ => none

end Json

namespace Item

/-- An item as an object. -/
def toJson (i : Item) : Json := .record [("biz", .text i.kind), ("biz_id", .word i.id)]

/-- The item that a value stands for. -/
def ofJson? : Json → Option Item
  | .array [kind, id] => do return ⟨← kind.text?, ← id.word?⟩
  | .object ms =>
    if ms.all (·.1.isSome) then do
      let kind ← Json.only? "biz" ms
      let id ← Json.only? "biz_id" ms
      return ⟨← kind.text?, ← id.word?⟩
    else none
  | _ => none

/-- The item that a text stands for. -/
def read? (text : String) : Option Item := (Json.read? text).bind ofJson?

end Item

namespace Counter

/-- A counter by its name. -/
def toJson (c : Counter) : Json := .text c.word

/-- The counter that a value names. -/
def ofJson? (v : Json) : Option Counter := v.bareName?.bind ofWord?

end Counter

namespace Standing

/-- A standing by its name. -/
def toJson (s : Standing) : Json := .text s.word

/-- The standing that a value names. -/
def ofJson? (v : Json) : Option Standing := v.bareName?.bind ofWord?

end Standing

namespace Counts

/-- The members that show counts. -/
def members (n : Counts) : List (String × Json) :=
  Counter.all.map fun c => (c.column, .word (n.get c))

/-- Counts as an object. -/
def toJson (n : Counts) : Json := .record n.members

end Counts

/-- A summary as an object. -/
def Summary.toJson (s : Summary) : Json :=
  .record ([("biz", .text s.item.kind), ("biz_id", .word s.item.id)] ++ s.counts.members
    ++ [("liked", .bool s.liked), ("collected", .bool s.collected)])

end Popularity

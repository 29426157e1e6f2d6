import Popularity.Counter
import Popularity.Item

/-!
# The counter cache

A bounded cache of counts. An entry lives for a fixed time after it was set; neither looking it up
nor adjusting it prolongs its life. An entry whose time is over is noticed, and removed, only when
an operation asks for it; until then it takes up room. When there is no room, the entry that was
used longest ago has to go.

The cache is guarded by a lock. An operation that crashes while it holds the lock leaves the lock
tainted; nothing is lost by that, and later operations work as before.

## Main definitions

* `Cache`, with `entries` in order of use
* `Cache.get`, `Cache.set`, `Cache.adjust`, `Cache.delete`
* `Cache.Op`, `Cache.exec` — the operations as data
-/

namespace Popularity

/-- What the cache holds for one item. -/
structure Entry where
  /-- The item's `cacheKey`. -/
  name : String
  counts : Counts
  /-- The entry is live while the time is below this. -/
  expiresAt : Nat
  deriving DecidableEq, Repr, Inhabited

/-- Times and lifetimes are in milliseconds. -/
structure Cache where
  /-- The number of entries asked for; see `room`. -/
  capacity : Nat
  lifetime : Nat
  /-- The most recently used entry first; names are distinct. -/
  entries : List Entry := []
  /-- Whether an operation has crashed while it held the lock. -/
  tainted : Bool := false
  deriving DecidableEq, Repr, Inhabited

/-- How an adjustment went. -/
inductive Adjusted where
  /-- The entry was live; the counter's new value. -/
  | applied (value : Int64)
  | skipped
  deriving DecidableEq, Repr, Inhabited

/-- How an operation may break off instead of giving an answer. -/
inductive Crash where
  | counterOverflow
  | clockOverflow
  /-- A time span is longer than can be told. -/
  | spanOverflow
  deriving DecidableEq, Repr, Inhabited

/-- The last words of a crash. -/
def Crash.message : Crash → String
  | .counterOverflow => "attempt to add with overflow"
  | .clockOverflow => "overflow when adding duration to instant"
  | .spanOverflow => "overflow when multiplying duration by scalar"

namespace Cache

/-- The number of entries that the cache may hold: the capacity, but at least one. -/
def room (c : Cache) : Nat := max c.capacity 1

/-- The last time that the clock can show: 2^63 - 1 seconds and a fraction. -/
def horizon : Nat := 9223372036854775807 * 1000 + 999

/-! ### Entries -/

/-- The entry of a name, live or not. -/
def lookup? (c : Cache) (name : String) : Option Entry := c.entries.find? (·.name == name)

/-- The cache without the entry of a name. -/
def drop (c : Cache) (name : String) : Cache :=
  { c with entries := c.entries.filter (·.name != name) }

/-- The cache with `e` as its most recent entry, instead of the one of that name if there is one.
If there is no room for one more, the oldest entry goes. -/
def hold (c : Cache) (e : Entry) : Cache :=
  { c with entries := (e :: c.entries.filter (·.name != e.name)).take c.room }

/-- The number of entries, live or not. -/
def size (c : Cache) : Nat := c.entries.length

/-! ### Operations -/

/-- The counts held for an item. A live entry becomes the most recent one. -/
def get (c : Cache) (now : Nat) (i : Item) : Option Counts × Cache :=
  match c.lookup? i.cacheKey with
  | none => (none, c)
  | some e => if now < e.expiresAt then (some e.counts, c.hold e) else (none, c.drop e.name)

/-- Holds the counts of an item for one lifetime. Nothing changes if the clock cannot show the end
of it. -/
def set (c : Cache) (now : Nat) (i : Item) (n : Counts) : Except Crash Unit × Cache :=
  if horizon < now + c.lifetime then (.error .clockOverflow, c)
  else (.ok (), c.hold ⟨i.cacheKey, n, now + c.lifetime⟩)

/-- Adds to a counter of a live entry, which becomes the most recent one; without one there is
nothing to do. A sum out of range is a crash under the lock. -/
def adjust (c : Cache) (now : Nat) (i : Item) (k : Counter) (by_ : Int64) :
    Except Crash Adjusted × Cache :=
  match c.lookup? i.cacheKey with
  | none => (.ok .skipped, c)
  | some e =>
    if now < e.expiresAt then
      match e.counts.add? k by_ with
      | some n => (.ok (.applied (n.get k)), c.hold { e with counts := n })
      | none => (.error .counterOverflow, { c.hold e with tainted := true })
    else (.ok .skipped, c.drop e.name)

/-- Forgets an item. -/
def delete (c : Cache) (i : Item) : Cache := c.drop i.cacheKey

/-! ### Operations as data -/

/-- One operation. -/
inductive Op where
  | get (i : Item)
  | set (i : Item) (n : Counts)
  | adjust (i : Item) (k : Counter) (by_ : Int64)
  | delete (i : Item)
  | size
  deriving DecidableEq, Repr, Inhabited

/-- What an operation answers. -/
abbrev Op.Answer : Op → Type
  | .get _ => Option Counts
  | .set .. => Unit
  | .adjust .. => Adjusted
  | .delete _ => Unit
  | .size => Nat

/-- What an operation answers where there is no cache: nothing is held. -/
def Op.missed : (o : Op) → o.Answer
  | .get _ => none
  | .set .. => ()
  | .adjust .. => .skipped
  | .delete _ => ()
  | .size => 0

/-- The operation's name in a warning. -/
def Op.name : Op → String
  | .get _ => "get"
  | .set .. => "set"
  | .adjust .. => "adjust_if_present"
  | .delete _ => "delete"
  | .size => "len"

/-- Runs one operation at a time. -/
def exec (now : Nat) (o : Op) (c : Cache) : Except Crash o.Answer × Cache :=
  match o with
  | .get i => let (a, c) := c.get now i; (.ok a, c)
  | .set i n => c.set now i n
  | .adjust i k by_ => c.adjust now i k by_
  | .delete i => (.ok (), c.delete i)
  | .size => (.ok c.size, c)

/-- Whether an operation reaches the lock: one that sets an entry first asks the clock. -/
def locks (c : Cache) (now : Nat) : Op → Bool
  | .set .. => now + c.lifetime ≤ horizon
  | _ => true

end Cache

end Popularity

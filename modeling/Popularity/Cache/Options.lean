import Popularity.Cache.Basic

/-!
# Cache options

## Main definitions

* `Cache.Options`, `Cache.Options.build?`
-/

namespace Popularity.Cache

/-- How to build a cache, if at all. -/
structure Options where
  enabled : Bool := true
  /-- In milliseconds. -/
  lifetime : Nat := 900 * 1000
  capacity : Nat := 10000
  deriving DecidableEq, Repr, Inhabited

namespace Options

/-- An empty cache. -/
def build (o : Options) : Cache := { capacity := o.capacity, lifetime := o.lifetime }

/-- An empty cache, unless caching is switched off. -/
def build? (o : Options) : Option Cache := if o.enabled then some o.build else none

end Options

end Popularity.Cache

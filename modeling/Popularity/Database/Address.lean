import Popularity.Database.Server

/-!
# Addresses of databases

A database is reached under a URL. One server listens at its address. Everything else leads
nowhere: a text without a scheme is no address, a socket that is not there cannot be opened, and at
any other place nobody answers in time.

## Main definitions

* `Host` — a server at its address
* `Host.connect`, `Host.reach`
-/

namespace Popularity

namespace Url

/-- Whether a text starts with a scheme: a letter, then letters, digits and `+-.`, then a colon. -/
def hasScheme (url : String) : Bool :=
  let (scheme, rest) := url.toList.span fun c => c.isAlphanum || c = '+' || c = '-' || c = '.'
  scheme.head?.any Char.isAlpha && rest.head? = some ':'

/-- The parts of the query, as they are written. -/
def queries (url : String) : List String :=
  let front := ((url.splitOn "#").head?).getD ""
  ("?".intercalate ((front.splitOn "?").drop 1)).splitOn "&"

/-- Whether the query names a socket by its directory. -/
def namesSocket (url : String) : Bool :=
  (queries url).any fun q => ["host=/", "host=%2F", "host=%2f"].any (q.startsWith ·)

end Url

/-- A server at its address. -/
structure Host where
  address : String
  server : Server
  deriving Repr, Inhabited

namespace Host

/-- Looks for a server under a URL. -/
def connect (h : Host) (url : String) : Except AccessFailure Unit :=
  if url = h.address then .ok ()
  else if !Url.hasScheme url then .error (.configuration "relative URL without a base")
  else if Url.namesSocket url then .error (.io "No such file or directory (os error 2)")
  else .error .poolTimedOut

/-- Looks for a server under a URL, and whether it answers. -/
def reach (url : String) (h : Host) : Except AccessFailure Unit × Host :=
  match h.connect url with
  | .ok () => let (result, v) := h.server.healthCheck; (result, { h with server := v })
  | .error why => (.error why, h)

end Host

end Popularity

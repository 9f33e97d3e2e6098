/-!
# Transport settings

The switches of a client that can be kept in a file, and the ways in which reading them can fail.
-/

namespace WebClient

/-- The switches of a client: whether traffic is logged, how many redirects are followed for one
request, whether bodies go out in chunks, and whether the idle handler has been taken out. -/
structure Settings where
  traceLogging : Bool := false
  maxRedirects : UInt32 := 5
  chunkingDisabled : Bool := false
  idleHandlerRemoved : Bool := false
  deriving DecidableEq, Repr

end WebClient

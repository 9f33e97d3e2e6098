/-!
# Failing streams

What a byte stream reports when it cannot be opened, read or written. A client passes such a report
on as it is.
-/

namespace WebClient

inductive StreamFault where
  | brokenPipe
  | connectionRefused
  | connectionReset
  | networkUnreachable
  | unexpectedEnd
  | timedOut
  deriving DecidableEq, Repr

def StreamFault.text : StreamFault → String
  | brokenPipe => "broken pipe"
  | connectionRefused => "connection refused"
  | connectionReset => "connection reset"
  | networkUnreachable => "network unreachable"
  | unexpectedEnd => "unexpected end of stream"
  | timedOut => "timed out"

/-- A stream's report of a failure, with a text where the fault is not reported by the system. -/
structure StreamError where
  fault : StreamFault
  text : Option String := none
  deriving DecidableEq, Repr

def StreamError.message (e : StreamError) : String :=
  e.text.getD e.fault.text

end WebClient

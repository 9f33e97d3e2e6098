import WebClient.Log
import WebClient.Text.Escaped

/-!
# The traffic log

Where traffic is logged, every block of bytes that is written or read leaves one record: which way
it went, how long it is, and its beginning in escaped form. Each side of a transport logs under a
name of its own, so that one can be watched without the other.
-/

namespace WebClient

/-- The side of a transport whose traffic is logged: connections the client opens, or connections
that are opened to it. -/
inductive TrafficSide where
  | client
  | server
  deriving DecidableEq, Repr

def TrafficSide.target : TrafficSide → String
  | client => "tracelog.http.upstream"
  | server => "tracelog.http.downstream"

inductive TrafficDirection where
  | outbound
  | inbound
  deriving DecidableEq, Repr

def TrafficDirection.name : TrafficDirection → String
  | outbound => "outbound"
  | inbound => "inbound"

/-- Where traffic is logged, and how many bytes of a block a record shows. -/
structure TrafficLog where
  side : TrafficSide
  previewBytes : Nat := 1024
  deriving DecidableEq, Repr

def TrafficLog.record (log : TrafficLog) (direction : TrafficDirection) (block : Bytes) :
    LogRecord :=
  let preview := block.take log.previewBytes
  { target := log.side.target
    level := .debug
    values := [("direction", .text direction.name), ("len", .number block.length),
      ("truncated", .flag (preview.length < block.length)),
      ("data", .text (Text.escaped preview))] }

end WebClient

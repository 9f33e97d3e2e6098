/-!
# Log records

What the client writes to its log: a record names the part of the client it comes from and how much
it matters, and gives a text and named values in a fixed order.
-/

namespace WebClient

inductive LogLevel where
  | debug
  | info
  | warn
  deriving DecidableEq, Repr

def LogLevel.name : LogLevel → String
  | debug => "DEBUG"
  | info => "INFO"
  | warn => "WARN"

inductive LogValue where
  | number (n : Nat)
  | flag (b : Bool)
  | text (s : String)
  deriving DecidableEq, Repr

structure LogRecord where
  target : String
  level : LogLevel
  message : Option String := none
  values : List (String × LogValue)
  deriving DecidableEq, Repr

end WebClient

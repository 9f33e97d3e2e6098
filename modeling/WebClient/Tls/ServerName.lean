import WebClient.Bytes
import WebClient.Net.IpAddress

/-!
# Server names

The host a secure connection verifies: a DNS name or an IP address. A DNS name has at most 253
bytes and consists of labels between dots, each of one to 63 letters, digits, hyphens and
underscores, without a hyphen at either end; a dot may follow the last label. A name whose last
label has digits only is none, so what looks like an IPv4 address must be one.
-/

namespace WebClient

inductive ServerName where
  | dns (name : String)
  | ip (address : IpAddress)
  deriving DecidableEq, Repr

namespace ServerName

def maxNameBytes : Nat := 253

def maxLabelBytes : Nat := 63

def isLabelChar (c : Char) : Bool :=
  c.isAlphanum || c = '-' || c = '_'

def isLabel (label : List Char) : Bool :=
  !label.isEmpty && label.length ≤ maxLabelBytes && label.all isLabelChar &&
    label.head? ≠ some '-' && label.getLast? ≠ some '-'

/-- The labels of a name, without the empty one behind a last dot. -/
def labels (name : List Char) : List (List Char) :=
  let labels := name.splitOn '.'
  if labels.getLast? = some [] then labels.dropLast else labels

def isDnsName (name : String) : Bool :=
  let labels := labels name.toList
  name.utf8ByteSize ≤ maxNameBytes && !labels.isEmpty && labels.all isLabel &&
    !(labels.getLast?.any (·.all Char.isDigit))

def parse? (host : String) : Option ServerName :=
  if isDnsName host then some (.dns host) else (IpAddress.parse? host).map .ip

/-- The name as text: a DNS name as it was given, an address in its written form. -/
def text : ServerName → String
  | dns name => name
  | ip address => address.text

end ServerName

end WebClient

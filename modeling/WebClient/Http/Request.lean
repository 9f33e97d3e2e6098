import WebClient.Bytes
import WebClient.Http.Headers

/-!
# Requests

A request names its method and target, carries header fields in order, and may carry a body. A
request without a body and one with an empty body differ: only the second is framed.
-/

namespace WebClient.Http

/-- A request method: one of the named ones, or any other word. -/
inductive Method where
  | get
  | post
  | put
  | delete
  | head
  | options
  | patch
  | other (word : String)
  deriving DecidableEq, Repr

namespace Method

def word : Method → String
  | get => "GET"
  | post => "POST"
  | put => "PUT"
  | delete => "DELETE"
  | head => "HEAD"
  | options => "OPTIONS"
  | patch => "PATCH"
  | other word => word

def named : List Method := [get, post, put, delete, head, options, patch]

/-- The method of a word; case counts. -/
def ofWord (word : String) : Method :=
  (named.find? (·.word == word)).getD (other word)

@[simp] theorem word_ofWord (word : String) : (ofWord word).word = word := by
  unfold ofWord
  cases h : named.find? (·.word == word) with
  | none => rfl
  | some m => simpa using List.find?_some h

end Method

/-- A request; `path` is the target of the request line, with its query. -/
structure Request where
  method : Method
  path : String
  headers : Headers := []
  body : Option Bytes := none
  deriving DecidableEq, Repr

namespace Request

def setHeader (request : Request) (name value : String) : Request :=
  { request with headers := request.headers.set name value }

def eraseHeader (request : Request) (name : String) : Request :=
  { request with headers := request.headers.erase name }

end Request

end WebClient.Http

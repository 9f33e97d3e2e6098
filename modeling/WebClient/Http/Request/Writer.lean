import WebClient.Http.Chunked
import WebClient.Http.Request
import WebClient.Text.Quoted

/-!
# Writing requests

A request goes out as its request line, its header fields in order, at most one field that says how
the body is framed, an empty line and the body. A body is sent in chunks, unless the request states
its length or chunks are switched off without the request asking for a transfer coding; where the
request has no framing field of its own for the framing used, one is added behind the others.

A request is refused when it has no Host, when its target is empty or has blanks, and at the first
header field that would not stand on one line of its own.
-/

namespace WebClient.Http.Request

inductive WriteError where
  | missingHost
  | invalidTarget
  | invalidHeader (name : String)
  deriving DecidableEq, Repr

def WriteError.message : WriteError → String
  | missingHost => "request has no Host header"
  | invalidTarget => "invalid request target"
  | invalidHeader name => "invalid header " ++ Text.quoted name

/-- How the bytes of a body are delimited. -/
inductive Framing where
  | plain
  | chunked
  deriving DecidableEq, Repr

def framing (request : Request) (chunking : Bool) : Framing :=
  if request.headers.has "Content-Length" then .plain
  else if request.headers.has "Transfer-Encoding" || chunking then .chunked
  else .plain

/-- The field that states the framing of the body, where the request does not state it. -/
def framingField (request : Request) (chunking : Bool) : Headers :=
  match request.body, request.framing chunking with
  | none, _ => []
  | some _, .chunked =>
    if request.headers.has "Transfer-Encoding" then []
    else [{ name := "Transfer-Encoding", value := "chunked" }]
  | some body, .plain =>
    if request.headers.has "Content-Length" then []
    else [{ name := "Content-Length", value := String.ofList (Text.decimal body.length) }]

def isTarget (path : String) : Bool :=
  !path.isEmpty && !path.toList.any Text.isBlank

def isOneLine (s : String) : Bool :=
  s.toList.all fun c => c ≠ '\r' && c ≠ '\n'

/-- Whether a field can be written and its name read back. -/
def isWritable (field : Field) : Bool :=
  !field.name.isEmpty && isOneLine field.name && isOneLine field.value &&
    !field.name.toList.elem ':'

def fieldLine (field : Field) : Bytes :=
  Bytes.ofString field.name ++ Bytes.ofString ": " ++ Bytes.ofString field.value ++ Bytes.crlf

def requestLine (request : Request) : Bytes :=
  Bytes.ofString request.method.word ++ Bytes.ofString " " ++ Bytes.ofString request.path ++
    Bytes.ofString " HTTP/1.1" ++ Bytes.crlf

/-- The request up to and with its empty line. -/
def head (request : Request) (chunking : Bool) : Bytes :=
  request.requestLine ++ (request.headers ++ request.framingField chunking).flatMap fieldLine ++
    Bytes.crlf

def content (request : Request) (chunking : Bool) : Bytes :=
  match request.body, request.framing chunking with
  | none, _ => []
  | some body, .chunked => Chunked.encode body
  | some body, .plain => body

def encode (request : Request) (chunking : Bool) : Except WriteError Bytes :=
  if !request.headers.has "Host" then .error .missingHost
  else if !isTarget request.path then .error .invalidTarget
  else match request.headers.find? (!isWritable ·) with
    | some field => .error (.invalidHeader field.name)
    | none => .ok (request.head chunking ++ request.content chunking)

end WebClient.Http.Request

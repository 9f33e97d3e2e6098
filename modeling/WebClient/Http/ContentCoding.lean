import WebClient.Coding.Gzip
import WebClient.Coding.Zlib
import WebClient.Http.Request
import WebClient.Http.Response.Reader

/-!
# Content codings

A client says which codings of a body it can undo, and undoes the one that the first
Content-Encoding field of a response names, if it is one of these. The body that comes of it is held
to the limit of any other body. What is named deflate should be in the zlib format, but some servers
leave the format's header out, so the data is read without it when it cannot be read with it.

The functions that inflate are a parameter: undoing a coding only says which of them is used.
-/

namespace WebClient.Http

inductive ContentCoding where
  | gzip
  | deflate
  | identity
  deriving DecidableEq, Repr

inductive ContentError where
  | inflate (e : InflateError)
  | tooLarge
  deriving DecidableEq, Repr

def ContentError.message : ContentError → String
  | inflate .corrupt => "corrupt compressed body"
  | inflate .truncated => "compressed body ends too soon"
  | tooLarge => "inflated body too large"

structure Inflaters where
  gzip : Bytes → Except InflateError Bytes
  zlib : Bytes → Except InflateError Bytes
  deflate : Bytes → Except InflateError Bytes

/-- The readers of the three formats, each of which stops behind the largest body. -/
def Inflaters.standard : Inflaters where
  gzip := Gzip.inflate ResponseReader.maxBodyBytes
  zlib := Zlib.inflate ResponseReader.maxBodyBytes
  deflate := Deflate.inflate ResponseReader.maxBodyBytes

namespace ContentCoding

def accepted : String := "gzip, deflate"

/-- The request with the codings that the client accepts, unless the caller has named others. -/
def prepare (request : Request) : Request :=
  if request.headers.has "Accept-Encoding" then request
  else request.setHeader "Accept-Encoding" accepted

/-- The coding that the value of a field names, in any letter case. -/
def ofValue? (value : String) : Option ContentCoding :=
  match Text.lower (Text.trim value) with
  | "gzip" | "x-gzip" => some gzip
  | "deflate" => some deflate
  | "identity" => some identity
  | _ => none

def bounded (inflated : Except InflateError Bytes) : Except ContentError Bytes :=
  match inflated with
  | .error e => .error (.inflate e)
  | .ok body => if body.length > ResponseReader.maxBodyBytes then .error .tooLarge else .ok body

/-- What a body that is coded as deflate stands for. -/
def inflateEither (inflaters : Inflaters) (body : Bytes) : Except ContentError Bytes :=
  match bounded (inflaters.zlib body) with
  | .ok inflated => .ok inflated
  | .error _ => bounded (inflaters.deflate body)

/-- The response with an inflated body, its length, and no coding. -/
def withInflated (response : Response) (body : Bytes) : Response :=
  let headers := (response.headers.erase "Content-Encoding").erase "Content-Length"
  let length : Field :=
    { name := "Content-Length", value := String.ofList (Text.decimal body.length) }
  { response with headers := headers ++ [length], body }

def decode (inflaters : Inflaters) (response : Response) : Except ContentError Response :=
  match (response.headers.get? "Content-Encoding").bind ofValue? with
  | none => .ok response
  | some .identity => .ok { response with headers := response.headers.erase "Content-Encoding" }
  | some .gzip => (bounded (inflaters.gzip response.body)).map (withInflated response)
  | some .deflate => (inflateEither inflaters response.body).map (withInflated response)

end ContentCoding

end WebClient.Http

import WebClient.Bytes
import WebClient.Text.Numeral

/-!
# Chunked bodies

A chunked body is a run of chunks, each led by its size in hexadecimal on a line of its own and
closed by an end of line, and ends with the size zero and an empty trailer section. The client
writes a body as a single chunk, because it has the whole body before it starts.
-/

namespace WebClient.Http.Chunked

def chunk (data : Bytes) : Bytes :=
  Bytes.ofString (String.ofList (Text.hexadecimal data.length)) ++ Bytes.crlf ++ data ++ Bytes.crlf

/-- The end of a body without trailers. -/
def lastChunk : Bytes :=
  Bytes.ofString "0" ++ Bytes.crlf ++ Bytes.crlf

/-- A body as one chunk, or none if it is empty, and the end. -/
def encode (body : Bytes) : Bytes :=
  (if body.isEmpty then [] else chunk body) ++ lastChunk

end WebClient.Http.Chunked

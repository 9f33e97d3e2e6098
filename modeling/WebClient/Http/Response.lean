import WebClient.Http.Headers
import WebClient.Text.Utf8

/-!
# Responses

A complete response: status, reason, header fields (the trailers of a chunked body behind the
others) and the whole body.
-/

namespace WebClient.Http

structure Response where
  status : Nat
  reason : Option String := none
  headers : Headers := []
  body : Bytes := []
  deriving DecidableEq, Repr

namespace Response

/-- Whether the status announces another answer before the final one. -/
def isInterim (response : Response) : Bool :=
  100 ≤ response.status && response.status < 200

def isRedirect (response : Response) : Bool :=
  response.status ∈ [301, 302, 303, 307, 308]

/-- The body as text, whatever its bytes. -/
def bodyText (response : Response) : String :=
  Utf8.decodeLossy response.body

end Response

end WebClient.Http

import WebClient.Http.Response.Final

/-!
# Draining a buffer of responses

Several responses may stand in one buffer, and one response may come in several pieces. Draining
reads until no further response is complete; feeding drains after every piece, and reads no piece
after an error.
-/

namespace WebClient.Http.ResponseReader

/-- The responses that were read, the error that ended the reading if there was one, and the reader
and the bytes that are left. -/
structure Drained where
  responses : List Response := []
  failure : Option ReadError := none
  reader : ResponseReader
  rest : Bytes

def drain (r : ResponseReader) (buffer : Bytes) : Drained :=
  let answer := r.decode buffer
  match _h : answer.result with
  | .ok none => { reader := answer.reader, rest := answer.rest }
  | .error e => { failure := some e, reader := answer.reader, rest := answer.rest }
  | .ok (some response) =>
    let later := drain answer.reader answer.rest
    { later with responses := response :: later.responses }
termination_by r.responsesLeft buffer
decreasing_by exact responsesLeft_lt_of_decode r buffer _h

/-- Reads pieces one after the other, behind the bytes in a buffer. The pieces behind an error stay
unread and are given back. -/
def feed (r : ResponseReader) (buffer : Bytes) : (pieces : List Bytes) → Drained × List Bytes
  | [] => ({ reader := r, rest := buffer }, [])
  | piece :: pieces =>
    let drained := r.drain (buffer ++ piece)
    match drained.failure with
    | some _ => (drained, pieces)
    | none =>
      let (later, unread) := feed drained.reader drained.rest pieces
      ({ later with responses := drained.responses ++ later.responses }, unread)

end WebClient.Http.ResponseReader

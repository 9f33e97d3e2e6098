import WebClient.Frame.Reader

/-!
# Draining a buffer of frames

Several frames may stand in one buffer, and one frame may come in several pieces. Draining reads
until no further frame is complete; feeding drains after every piece, and reads no piece after an
error.
-/

namespace WebClient.FrameReader

/-- The frames that were read, the error that ended the reading if there was one, and the reader and
the bytes that are left. -/
structure Drained where
  frames : List Received := []
  failure : Option Error := none
  reader : FrameReader
  rest : Bytes
  deriving DecidableEq, Repr

/-- How much is left to read: a frame uses up bytes, or was begun before. -/
def framesLeft (r : FrameReader) (buffer : Bytes) : Nat :=
  2 * buffer.length + if r.phase = .header then 0 else 1

theorem framesLeft_lt_of_decode (r : FrameReader) (buffer : Bytes) {received : Received}
    (h : (r.decode buffer).result = .ok (some received)) :
    (r.decode buffer).reader.framesLeft (r.decode buffer).rest < r.framesLeft buffer := by
  obtain ⟨hr, hle, hlt⟩ := length_lt_of_decode r buffer h
  simp only [framesLeft, hr, if_true]
  split
  · have := hlt ‹_›
    omega
  · omega

def drain (r : FrameReader) (buffer : Bytes) : Drained :=
  let answer := r.decode buffer
  match _h : answer.result with
  | .ok none => { reader := answer.reader, rest := answer.rest }
  | .error e => { failure := some e, reader := answer.reader, rest := answer.rest }
  | .ok (some received) =>
    let later := drain answer.reader answer.rest
    { later with frames := received :: later.frames }
termination_by r.framesLeft buffer
decreasing_by exact framesLeft_lt_of_decode r buffer _h

/-- Reads pieces one after the other, behind the bytes in a buffer. The pieces behind an error stay
unread and are given back. -/
def feed (r : FrameReader) (buffer : Bytes) : (pieces : List Bytes) → Drained × List Bytes
  | [] => ({ reader := r, rest := buffer }, [])
  | piece :: pieces =>
    let drained := r.drain (buffer ++ piece)
    match drained.failure with
    | some _ => (drained, pieces)
    | none =>
      let (later, unread) := feed drained.reader drained.rest pieces
      ({ later with frames := drained.frames ++ later.frames }, unread)

end WebClient.FrameReader

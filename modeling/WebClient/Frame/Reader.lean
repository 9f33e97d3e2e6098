import WebClient.Frame.Writer
import WebClient.Text.Utf8

/-!
# Reading frames

A reader takes the bytes of a connection as they come and gives back the frames of a server. A
message may be cut into fragments, and a fragment of a text message may end inside a character: the
bytes of that character wait for the next fragment, so every text that is given back is whole. Each
fragment comes back as a frame of the message it continues.

What a header takes leaves the buffer before the header is judged, so reading may go on after an
error with the bytes behind it.
-/

namespace WebClient

inductive Received where
  | text (body : String) (final : Bool)
  | binary (data : Bytes) (final : Bool)
  | ping (payload : Bytes)
  | pong (payload : Bytes)
  | close (code : CloseCode) (reason : String)
  | unknown (opcode : UInt8)
  deriving DecidableEq, Repr

inductive MessageKind where
  | text
  | binary
  deriving DecidableEq, Repr

/-- The final bit and the four bits of the opcode, from a frame's first byte. -/
structure FrameHead where
  fin : Bool
  code : UInt8
  deriving DecidableEq, Repr

inductive FramePhase where
  | header
  | length16 (head : FrameHead)
  | length64 (head : FrameHead)
  | payload (head : FrameHead) (length : Nat)
  deriving DecidableEq, Repr

/-- A frame in the making, the kind of the message in progress, and the bytes of a character that
the last fragment of a text message left unfinished. -/
structure FrameReader where
  phase : FramePhase := .header
  fragment : Option MessageKind := none
  carry : Bytes := []
  deriving DecidableEq, Repr

namespace FrameReader

inductive Error where
  | reservedBits
  | masked
  | fragmentedControl
  | longControl
  | tooLong
  | expectedContinuation
  | nothingToContinue
  | invalidText
  | shortClose
  | invalidReason
  deriving DecidableEq, Repr

def Error.message : Error → String
  | reservedBits => "reserved bits set without a negotiated extension"
  | masked => "server frame must not be masked"
  | fragmentedControl => "control frame must not be fragmented"
  | longControl => "control frame payload too long"
  | tooLong => "data frame payload too long"
  | expectedContinuation => "expected continuation frame"
  | nothingToContinue => "continuation frame without a message in progress"
  | invalidText => "invalid UTF-8 in text frame"
  | shortClose => "close frame payload of one byte"
  | invalidReason => "invalid UTF-8 in close reason"

/-- What a call to the reader comes to: a frame, nothing yet, or an error, with the reader and the
buffer it leaves. -/
structure Answer where
  result : Except Error (Option Received)
  reader : FrameReader
  rest : Bytes

inductive Step where
  | again (reader : FrameReader) (rest : Bytes)
  | answer (result : Except Error (Option Received)) (reader : FrameReader) (rest : Bytes)

def readHeader (first second : UInt8) : Except Error FramePhase :=
  if first &&& 0x70 ≠ 0 then .error .reservedBits
  else if second &&& 0x80 ≠ 0 then .error .masked
  else
    let head : FrameHead := { fin := first &&& 0x80 ≠ 0, code := first &&& 0x0F }
    let length := (second &&& 0x7F).toNat
    let control := (Opcode.ofCode? head.code).any Opcode.isControl
    if control && !head.fin then .error .fragmentedControl
    else if control && length > Frame.maxControlPayload then .error .longControl
    else if length = 126 then .ok (.length16 head)
    else if length = 127 then .ok (.length64 head)
    else .ok (.payload head length)

/-- A Close frame: without a payload it has no code, and otherwise a code and a reason. -/
def readClose (payload : Bytes) : Except Error Received :=
  match payload with
  | [] => .ok (.close CloseCode.noStatus "")
  | [_] => .error .shortClose
  | high :: low :: reason =>
    match Utf8.decode? reason with
    | some reason => .ok (.close (UInt16.ofNat (Bytes.toNat [high, low])) reason)
    | none => .error .invalidReason

/-- A data frame of a message of the given kind. Of a text, the characters that are whole are
given back; bytes that may still become one are kept, if another fragment is to come. -/
def readData (r : FrameReader) (kind : MessageKind) (fin : Bool) (payload : Bytes) :
    FrameReader × Except Error Received :=
  match kind with
  | .binary => (r, .ok (.binary payload fin))
  | .text =>
    match Utf8.read (r.carry ++ payload) with
    | (body, .complete) => ({ r with carry := [] }, .ok (.text body fin))
    | (_, .malformed) => ({ r with carry := [] }, .error .invalidText)
    | (body, .unfinished tail) =>
      if fin then ({ r with carry := [] }, .error .invalidText)
      else ({ r with carry := tail }, .ok (.text body fin))

def startMessage (r : FrameReader) (kind : MessageKind) (fin : Bool) (payload : Bytes) :
    FrameReader × Except Error Received :=
  if r.fragment.isSome then (r, .error .expectedContinuation)
  else { r with fragment := if fin then none else some kind }.readData kind fin payload

def continueMessage (r : FrameReader) (fin : Bool) (payload : Bytes) :
    FrameReader × Except Error Received :=
  match r.fragment with
  | none => (r, .error .nothingToContinue)
  | some kind =>
    { r with fragment := if fin then none else some kind }.readData kind fin payload

def classify (r : FrameReader) (head : FrameHead) (payload : Bytes) :
    FrameReader × Except Error Received :=
  match Opcode.ofCode? head.code with
  | none => (r, .ok (.unknown head.code))
  | some .ping => (r, .ok (.ping payload))
  | some .pong => (r, .ok (.pong payload))
  | some .close => (r, readClose payload)
  | some .text => r.startMessage .text head.fin payload
  | some .binary => r.startMessage .binary head.fin payload
  | some .continuation => r.continueMessage head.fin payload

def step (r : FrameReader) (buffer : Bytes) : Step :=
  match r.phase with
  | .header =>
    match buffer with
    | first :: second :: rest =>
      match readHeader first second with
      | .error e => .answer (.error e) r rest
      | .ok phase => .again { r with phase } rest
    | _ => .answer (.ok none) r buffer
  | .length16 head =>
    match buffer.take? 2 with
    | none => .answer (.ok none) r buffer
    | some (length, rest) => .again { r with phase := .payload head length.toNat } rest
  | .length64 head =>
    match buffer.take? 8 with
    | none => .answer (.ok none) r buffer
    | some (bytes, rest) =>
      let length := bytes.toNat
      if length > Frame.maxPayload then .answer (.error .tooLong) r rest
      else .again { r with phase := .payload head length } rest
  | .payload head length =>
    if length > Frame.maxPayload then .answer (.error .tooLong) r buffer
    else match buffer.take? length with
      | none => .answer (.ok none) r buffer
      | some (payload, rest) =>
        let (r, result) := { r with phase := .header }.classify head payload
        .answer (result.map some) r rest

theorem length_lt_of_step {r r' : FrameReader} {buffer rest' : Bytes}
    (h : r.step buffer = .again r' rest') : rest'.length < buffer.length := by
  have shorter {n : Nat} {first rest : Bytes} (ht : buffer.take? (n + 1) = some (first, rest)) :
      rest.length < buffer.length := by
    obtain ⟨rfl, hn⟩ := Bytes.take?_eq_some ht
    simp only [List.length_append]
    omega
  unfold step at h
  split at h
  · split at h
    · split at h
      · simp at h
      · simp only [Step.again.injEq] at h
        simp only [List.length_cons, ← h.2]
        omega
    · simp at h
  · split at h
    · simp at h
    · next ht =>
      simp only [Step.again.injEq] at h
      exact h.2 ▸ shorter ht
  · split at h
    · simp at h
    · next ht =>
      dsimp only at h
      split at h
      · simp at h
      · simp only [Step.again.injEq] at h
        exact h.2 ▸ shorter ht
  · split at h
    · simp at h
    · split at h <;> simp at h

/-- Reads on until a frame is complete, more bytes are needed, or an error is found. -/
def decode (r : FrameReader) (buffer : Bytes) : Answer :=
  match _h : r.step buffer with
  | .answer result reader rest => { result, reader, rest }
  | .again r' rest => decode r' rest
termination_by buffer.length
decreasing_by exact length_lt_of_step _h

@[simp] theorem phase_classify (r : FrameReader) (head : FrameHead) (payload : Bytes) :
    (r.classify head payload).1.phase = r.phase := by
  have data : ∀ (r : FrameReader) kind, (r.readData kind head.fin payload).1.phase = r.phase := by
    intro r kind
    unfold readData
    repeat' split
    all_goals rfl
  unfold classify startMessage continueMessage
  repeat' split
  all_goals first | rfl | exact data _ _

/-- When a frame has been read, the reader waits for the next header and there are no more bytes
than before; a reader that waited for a header has used some up. -/
theorem length_lt_of_decode (r : FrameReader) (buffer : Bytes) {received : Received}
    (h : (r.decode buffer).result = .ok (some received)) :
    (r.decode buffer).reader.phase = .header ∧ (r.decode buffer).rest.length ≤ buffer.length ∧
      (r.phase = .header → (r.decode buffer).rest.length < buffer.length) := by
  fun_induction decode r buffer with
  | case1 r buffer result reader rest hs =>
    dsimp only at h ⊢
    subst h
    unfold step at hs
    split at hs
    · repeat' split at hs
      all_goals simp at hs
    · split at hs <;> simp at hs
    · split at hs
      · simp at hs
      · dsimp only at hs
        split at hs <;> simp at hs
    · next head length hp =>
      split at hs
      · simp at hs
      · split at hs
        · simp at hs
        · next ht =>
          simp only [Step.answer.injEq] at hs
          obtain ⟨-, rfl, rfl⟩ := hs
          obtain ⟨rfl, -⟩ := Bytes.take?_eq_some ht
          exact ⟨by simp, by simp, by simp [hp]⟩
  | case2 r buffer r' rest hs ih =>
    obtain ⟨hr, hle, -⟩ := ih h
    have := length_lt_of_step hs
    exact ⟨hr, by omega, fun _ => by omega⟩

end FrameReader

end WebClient

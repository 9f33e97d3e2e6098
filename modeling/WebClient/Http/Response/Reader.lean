import WebClient.Http.Response
import WebClient.Text.Numeral
import WebClient.Text.Split

/-!
# Reading responses

A reader takes the bytes of a connection as they come and gives back complete responses. It stands
in one of eight phases of a response and waits there until the buffer holds enough to go on. What
it has used up leaves the buffer, also when a line turns out to be bad, so reading may go on after
an error with the next line.

The head, trailers included, has at most 64 KiB and the body at most 16 MiB. A body ends after the
length stated, after the last chunk, or with the connection. The bytes that a body has and those
that a chunk announces are added up as natural numbers: near 2^64 too their sum does not wrap around
to a small one, so such a chunk makes the body too large.
-/

namespace WebClient.Http

inductive ReadError where
  | headTooLarge
  | notUtf8
  | invalidStatusLine (line : String)
  | invalidStatus
  | malformedHeader (line : String)
  | invalidLength
  | invalidChunkSize
  | missingChunkEnd
  | bodyTooLarge
  | closedEarly
  deriving DecidableEq, Repr

def ReadError.message : ReadError → String
  | headTooLarge => "response header section too large"
  | notUtf8 => "invalid header UTF-8"
  | invalidStatusLine line => "invalid status line: " ++ line
  | invalidStatus => "invalid status code"
  | malformedHeader line => "malformed header line: " ++ line
  | invalidLength => "invalid Content-Length"
  | invalidChunkSize => "invalid chunk size"
  | missingChunkEnd => "missing CRLF after chunk data"
  | bodyTooLarge => "response body too large"
  | closedEarly => "connection closed mid-response"

inductive Phase where
  | statusLine
  | headers
  | body (length : Nat)
  | untilClose
  | chunkSize
  | chunkData (remaining : Nat)
  | chunkEnd
  | trailers
  deriving DecidableEq, Repr

/-- Whether the lines read in a phase count towards the size of the head. -/
def Phase.countsLines : Phase → Bool
  | .statusLine | .headers | .trailers => true
  | _ => false

/-- A response in the making: what has been read of it, and how many bytes its head has taken. -/
structure ResponseReader where
  phase : Phase := .statusLine
  status : Nat := 0
  reason : Option String := none
  headers : Headers := []
  headBytes : Nat := 0
  body : ByteArray := .empty

namespace ResponseReader

/-- The most bytes a status line, header fields and trailers may have together. -/
def maxHeadBytes : Nat := 64 * 1024

def maxBodyBytes : Nat := 16 * 1024 * 1024

/-- What a call to the reader comes to: a response, nothing yet, or an error, with the reader and
the buffer it leaves. -/
structure Answer where
  result : Except ReadError (Option Response)
  reader : ResponseReader
  rest : Bytes

inductive Step where
  | again (reader : ResponseReader) (rest : Bytes)
  | answer (result : Except ReadError (Option Response)) (reader : ResponseReader) (rest : Bytes)

def isIdle (r : ResponseReader) : Bool :=
  r.phase == .statusLine && r.headBytes == 0

def response (r : ResponseReader) : Response :=
  { status := r.status, reason := r.reason, headers := r.headers, body := r.body.data.toList }

/-- The response is complete: it is given back, and the reader starts afresh. -/
def finish (r : ResponseReader) (rest : Bytes) : Step :=
  .answer (.ok (some r.response)) {} rest

def addBody (r : ResponseReader) (bytes : Bytes) : ResponseReader :=
  { r with body := r.body ++ bytes.toByteArray }

/-- A line of so many bytes has been taken; in some phases it counts towards the size of the
head. -/
def countLine (r : ResponseReader) (bytes : Nat) : ResponseReader :=
  if r.phase.countsLines then { r with headBytes := r.headBytes + bytes } else r

/-- Takes one line off the buffer and goes on with its text. A line that is not there yet is waited
for as long as the head stays within its limit. -/
def withLine (r : ResponseReader) (buffer : Bytes)
    (next : String → ResponseReader → Bytes → Step) : Step :=
  match buffer.splitLine? with
  | none =>
    if r.headBytes + buffer.length > maxHeadBytes then .answer (.error .headTooLarge) r buffer
    else .answer (.ok none) r buffer
  | some (line, rest) =>
    let r := r.countLine (line.length + 2)
    if r.phase.countsLines && r.headBytes > maxHeadBytes then .answer (.error .headTooLarge) r rest
    else match Utf8.decode? line with
      | none => .answer (.error .notUtf8) r rest
      | some text => next text r rest

/-- The status and reason of a status line: a version, a status from 100 to 999 and, if anything
but blanks follows, the reason, separated by single spaces. -/
def readStatusLine (line : String) : Except ReadError (Nat × Option String) :=
  let (version, afterVersion) := (Text.splitFirst? ' ' line.toList).getD (line.toList, [])
  let (status, reason) := (Text.splitFirst? ' ' afterVersion).getD (afterVersion, [])
  if !"HTTP/".toList.isPrefixOf version then .error (.invalidStatusLine line)
  else match Text.numeral? 10 (Text.maxOfBits 16) status with
    | none => .error .invalidStatus
    | some n =>
      if 100 ≤ n ∧ n < 1000 then
        let reason := Text.trimChars reason
        .ok (n, if reason.isEmpty then none else some (String.ofList reason))
      else .error .invalidStatus

/-- The header field of a line: what stands before and after its first colon, trimmed. -/
def readField (line : String) : Except ReadError Field :=
  match Text.splitFirst? ':' line.toList with
  | some (name, value) =>
    .ok {
      name := String.ofList (Text.trimChars name)
      value := String.ofList (Text.trimChars value) }
  | none => .error (.malformedHeader line)

/-- The size on a chunk's first line; what follows a semicolon is ignored. -/
def readChunkSize (line : String) : Option Nat :=
  Text.numeral? 16 (Text.maxOfBits 64) (Text.trimChars (line.toList.takeWhile (· ≠ ';')))

def isBodiless (status : Nat) : Bool :=
  (100 ≤ status && status < 200) || status == 204 || status == 304

/-- Whether a transfer coding is named anywhere that makes the body chunked. -/
def isChunked (headers : Headers) : Bool :=
  (headers.values "transfer-encoding").any fun value =>
    (Text.splitMarker? "chunked".toList (Text.lower value).toList).isSome

/-- The length stated by the first field that states one. -/
def statedLength (headers : Headers) : Except ReadError (Option Nat) :=
  match headers.get? "content-length" with
  | none => .ok none
  | some value =>
    match Text.numeral? 10 (Text.maxOfBits 64) (Text.trimChars value.toList) with
    | some n => .ok (some n)
    | none => .error .invalidLength

/-- The header fields are complete: the status and the fields decide how the body is read. -/
def startBody (r : ResponseReader) (rest : Bytes) : Step :=
  if isBodiless r.status then r.finish rest
  else if isChunked r.headers then .again { r with phase := .chunkSize } rest
  else match statedLength r.headers with
    | .error e => .answer (.error e) r rest
    | .ok none => .again { r with phase := .untilClose } rest
    | .ok (some 0) => r.finish rest
    | .ok (some length) =>
      if length > maxBodyBytes then .answer (.error .bodyTooLarge) r rest
      else .again { r with phase := .body length } rest

def step (r : ResponseReader) (buffer : Bytes) : Step :=
  match r.phase with
  | .statusLine =>
    r.withLine buffer fun line r rest =>
      if line.isEmpty then .again { r with headBytes := 0 } rest
      else match readStatusLine line with
        | .error e => .answer (.error e) r rest
        | .ok (status, reason) => .again { r with phase := .headers, status, reason } rest
  | .headers =>
    r.withLine buffer fun line r rest =>
      if line.isEmpty then r.startBody rest
      else match readField line with
        | .error e => .answer (.error e) r rest
        | .ok field => .again { r with headers := r.headers ++ [field] } rest
  | .body length =>
    let (taken, rest) := buffer.splitAt (length - r.body.size)
    let r := r.addBody taken
    if r.body.size = length then r.finish rest else .answer (.ok none) r rest
  | .untilClose =>
    if r.body.size + buffer.length > maxBodyBytes then .answer (.error .bodyTooLarge) r buffer
    else .answer (.ok none) (r.addBody buffer) []
  | .chunkSize =>
    r.withLine buffer fun line r rest =>
      match readChunkSize line with
      | none => .answer (.error .invalidChunkSize) r rest
      | some size =>
        -- The sum is one of natural numbers and does not wrap around.
        if r.body.size + size > maxBodyBytes then .answer (.error .bodyTooLarge) r rest
        else .again { r with phase := if size = 0 then .trailers else .chunkData size } rest
  | .chunkData remaining =>
    let (taken, rest) := buffer.splitAt remaining
    let r := r.addBody taken
    if taken.length < remaining then
      .answer (.ok none) { r with phase := .chunkData (remaining - taken.length) } rest
    else .again { r with phase := .chunkEnd } rest
  | .chunkEnd =>
    match buffer with
    | 13 :: 10 :: rest => .again { r with phase := .chunkSize } rest
    | _ :: _ :: _ => .answer (.error .missingChunkEnd) r buffer
    | _ => .answer (.ok none) r buffer
  | .trailers =>
    r.withLine buffer fun line r rest =>
      if line.isEmpty then r.finish rest
      else match readField line with
        | .error e => .answer (.error e) r rest
        | .ok field => .again { r with headers := r.headers ++ [field] } rest

/-- How much is left to do: every step that goes on uses up bytes, or has just taken the last of a
chunk's data. -/
def work (r : ResponseReader) (buffer : Bytes) : Nat :=
  2 * buffer.length + match r.phase with
    | .chunkData _ => 1
    | _ => 0

theorem withLine_again {r r' : ResponseReader} {buffer rest' : Bytes}
    {next : String → ResponseReader → Bytes → Step}
    (h : r.withLine buffer next = .again r' rest') :
    ∃ line r₁ rest, next line r₁ rest = .again r' rest' ∧ rest.length < buffer.length := by
  unfold withLine at h
  split at h
  · split at h <;> simp at h
  · next line rest hl =>
    generalize r.countLine (line.length + 2) = r₁ at h
    dsimp only at h
    split at h
    · simp at h
    · split at h
      · simp at h
      · exact ⟨_, _, _, h, Bytes.length_lt_of_splitLine? hl⟩

theorem startBody_again {r r' : ResponseReader} {rest rest' : Bytes}
    (h : r.startBody rest = .again r' rest') : rest' = rest ∧ ∀ n, r'.phase ≠ .chunkData n := by
  unfold startBody finish at h
  repeat' split at h
  all_goals simp at h
  all_goals obtain ⟨rfl, rfl⟩ := h; simp

theorem work_lt_of_step {r r' : ResponseReader} {buffer rest' : Bytes}
    (h : r.step buffer = .again r' rest') : r'.work rest' < r.work buffer := by
  have shorter : ∀ {rest : Bytes}, rest'.length ≤ rest.length → rest.length < buffer.length →
      r'.work rest' < r.work buffer := by
    intro rest h₁ h₂
    unfold work
    split <;> split <;> omega
  unfold step at h
  split at h
  · obtain ⟨line, r₁, rest, hn, hlt⟩ := withLine_again h
    repeat' split at hn
    all_goals simp at hn
    all_goals exact shorter (by simp [hn.2]) hlt
  · obtain ⟨line, r₁, rest, hn, hlt⟩ := withLine_again h
    split at hn
    · exact shorter (by simp [(startBody_again hn).1]) hlt
    · split at hn
      · simp at hn
      · simp at hn
        exact shorter (by simp [hn.2]) hlt
  · simp only [finish] at h
    split at h <;> simp at h
  · split at h <;> simp at h
  · obtain ⟨line, r₁, rest, hn, hlt⟩ := withLine_again h
    repeat' split at hn
    all_goals simp at hn
    all_goals exact shorter (by simp [hn.2]) hlt
  · next n hp =>
    simp only [List.splitAt_eq] at h
    split at h
    · simp at h
    · simp at h
      obtain ⟨rfl, rfl⟩ := h
      simp only [work, hp, List.length_drop]
      omega
  · next hp =>
    split at h
    · next rest =>
      simp at h
      have fewer : rest.length < (13 :: 10 :: rest : Bytes).length := by
        simp only [List.length_cons]
        omega
      exact shorter (by simp [h.2]) fewer
    · simp at h
    · simp at h
  · obtain ⟨line, r₁, rest, hn, hlt⟩ := withLine_again h
    simp only [finish] at hn
    repeat' split at hn
    all_goals simp at hn
    all_goals exact shorter (by simp [hn.2]) hlt

/-- Reads on until a response is complete, more bytes are needed, or an error is found. -/
def decode (r : ResponseReader) (buffer : Bytes) : Answer :=
  match _h : r.step buffer with
  | .answer result reader rest => { result, reader, rest }
  | .again r' rest => decode r' rest
termination_by r.work buffer
decreasing_by exact work_lt_of_step _h

/-- Reads what is left when the connection has ended: this completes a body that ends with it, and
is an error inside any other response. -/
def decodeEnd (r : ResponseReader) (buffer : Bytes) : Answer :=
  let answer := r.decode buffer
  match answer.result with
  | .ok none =>
    if answer.reader.phase = .untilClose then
      { answer with result := .ok (some answer.reader.response), reader := {} }
    else if answer.reader.isIdle && answer.rest.isEmpty then answer
    else { answer with result := .error .closedEarly }
  | _ => answer

end ResponseReader

end WebClient.Http

import WebClient.Proofs.Http.Response.Pieces

/-!
# The limits of a reader

A reader keeps what it holds within limits: the body it has read, the length or chunk it waits for,
and the lines of the head. `WithinLimits` says so for each phase. The reader may be asked to go on
after an error, which leaves it half-way through a head or a chunk, and the limits hold there too.

`Moves` says once what a step can do to a reader that is within its limits (`moves_step`). That the
limits are kept, and what follows for a response that is given back and for the bytes that stay
unread, is read off the moves.
-/

namespace WebClient.Http.ResponseReader

/-- A reader holds no more than it may. -/
structure WithinLimits (r : ResponseReader) : Prop where
  /-- The body has not begun while the head is read. -/
  body_empty : r.phase = .statusLine ∨ r.phase = .headers → r.body = .empty
  body_le : r.body.size ≤ maxBodyBytes
  /-- A body of stated length is not complete yet. -/
  length_le : ∀ length, r.phase = .body length → r.body.size < length ∧ length ≤ maxBodyBytes
  /-- A chunk is not complete yet, and the body has room for what is missing. -/
  chunk_le : ∀ remaining, r.phase = .chunkData remaining →
    0 < remaining ∧ r.body.size + remaining ≤ maxBodyBytes
  /-- A head that has grown too large is never read to its end. -/
  head_le : r.phase.countsLines = false → r.headBytes ≤ maxHeadBytes

/-! ### What a step can do -/

/-- The line of the head, if any, that a step takes off a buffer. -/
def headLine? (r : ResponseReader) (buffer : Bytes) : Option Bytes :=
  if r.phase.countsLines then buffer.splitLine?.map Prod.fst else none

def fieldOf? (line : Bytes) : Option Field :=
  (Utf8.decode? line).bind fun text => (readField text).toOption

def pastLine (r : ResponseReader) (line : Bytes) : ResponseReader :=
  { r with headBytes := r.headBytes + (line.length + 2) }

/-- The phases in which a body begins, and what the fields of the head say there. -/
inductive Opens (fields : Headers) : Phase → Prop
  | chunked (hchunked : isChunked fields = true) : Opens fields .chunkSize
  | sized {length : Nat} (hchunked : isChunked fields = false)
      (hlength : statedLength fields = .ok (some length)) (hpos : 0 < length)
      (hle : length ≤ maxBodyBytes) : Opens fields (.body length)
  | untilClose (hchunked : isChunked fields = false) (hlength : statedLength fields = .ok none) :
      Opens fields .untilClose

/-- What a step can do. -/
inductive Moves (r : ResponseReader) (buffer : Bytes) : Step → Prop
  | refuses {e : ReadError} {rest : Bytes} (hline : r.headLine? buffer = none) :
      Moves r buffer (.answer (.error e) r rest)
  /-- A line of the head is used up even if nothing comes of it. -/
  | refusesLine {e : ReadError} {line rest : Bytes} (hline : r.headLine? buffer = some line)
      (hnothing : (r.pastLine line).headBytes ≤ maxHeadBytes →
        r.phase = .statusLine ∨ fieldOf? line = none) :
      Moves r buffer (.answer (.error e) (r.pastLine line) rest)
  | waits (hline : r.headLine? buffer = none) (hfit : buffer.length ≤ maxHeadBytes) :
      Moves r buffer (.answer (.ok none) r buffer)
  | skipsLine {rest : Bytes} (hphase : r.phase = .statusLine)
      (hline : r.headLine? buffer = some []) :
      Moves r buffer (.again { r with headBytes := 0 } rest)
  | readsStatus {line rest : Bytes} {text : String} {status : Nat} {reason : Option String}
      (hphase : r.phase = .statusLine) (hline : r.headLine? buffer = some line)
      (htext : Utf8.decode? line = some text) (hread : readStatusLine text = .ok (status, reason)) :
      Moves r buffer (.again { r.pastLine line with phase := .headers, status, reason } rest)
  | readsField {line rest : Bytes} {field : Field}
      (hphase : r.phase = .headers ∨ r.phase = .trailers) (hline : r.headLine? buffer = some line)
      (hfield : fieldOf? line = some field) :
      Moves r buffer (.again { r.pastLine line with headers := r.headers ++ [field] } rest)
  | opensBody {phase : Phase} {rest : Bytes} (hphase : r.phase = .headers)
      (hline : r.headLine? buffer = some []) (hfit : (r.pastLine []).headBytes ≤ maxHeadBytes)
      (hbody : isBodiless r.status = false) (hopens : Opens r.headers phase) :
      Moves r buffer (.again { r.pastLine [] with phase } rest)
  | endsHead {rest : Bytes} (hphase : r.phase = .headers) (hline : r.headLine? buffer = some [])
      (hfit : (r.pastLine []).headBytes ≤ maxHeadBytes)
      (hends : isBodiless r.status = false →
        isChunked r.headers = false ∧ statedLength r.headers = .ok (some 0)) :
      Moves r buffer (.answer (.ok (some r.response)) {} rest)
  | gathers {length : Nat} (hphase : r.phase = .body length)
      (hshort : r.body.size + buffer.length < length) :
      Moves r buffer (.answer (.ok none) (r.addBody buffer) [])
  | completes {length : Nat} {taken rest : Bytes} (hphase : r.phase = .body length)
      (htaken : r.body.size + taken.length = length) :
      Moves r buffer (.answer (.ok (some (r.addBody taken).response)) {} rest)
  | gathersRest (hphase : r.phase = .untilClose)
      (hfit : r.body.size + buffer.length ≤ maxBodyBytes) :
      Moves r buffer (.answer (.ok none) (r.addBody buffer) [])
  | readsSize {size : Nat} {rest : Bytes} (hphase : r.phase = .chunkSize)
      (hfit : r.body.size + size ≤ maxBodyBytes) :
      Moves r buffer
        (.again { r with phase := if size = 0 then .trailers else .chunkData size } rest)
  | gathersChunk {remaining : Nat} (hphase : r.phase = .chunkData remaining)
      (hshort : buffer.length < remaining) :
      Moves r buffer (.answer (.ok none)
        { r.addBody buffer with phase := .chunkData (remaining - buffer.length) } [])
  | completesChunk {remaining : Nat} {taken rest : Bytes} (hphase : r.phase = .chunkData remaining)
      (htaken : taken.length = remaining) :
      Moves r buffer (.again { r.addBody taken with phase := .chunkEnd } rest)
  | leavesChunk {rest : Bytes} (hphase : r.phase = .chunkEnd) :
      Moves r buffer (.again { r with phase := .chunkSize } rest)
  | endsTrailers {rest : Bytes} (hphase : r.phase = .trailers)
      (hline : r.headLine? buffer = some []) (hfit : (r.pastLine []).headBytes ≤ maxHeadBytes) :
      Moves r buffer (.answer (.ok (some r.response)) {} rest)

theorem headLine?_of_line {r : ResponseReader} {buffer line rest : Bytes}
    (hcounts : r.phase.countsLines = true) (h : buffer.splitLine? = some (line, rest)) :
    r.headLine? buffer = some line := by
  rw [headLine?, if_pos hcounts, h, Option.map_some]

theorem headLine?_of_not_counts {r : ResponseReader} (hcounts : r.phase.countsLines = false)
    (buffer : Bytes) : r.headLine? buffer = none := by
  simp [headLine?, hcounts]

theorem countLine_of_counts {r : ResponseReader} (hcounts : r.phase.countsLines = true)
    (line : Bytes) : r.countLine (line.length + 2) = r.pastLine line := by
  simp [countLine, hcounts, pastLine]

theorem countLine_of_not_counts {r : ResponseReader} (hcounts : r.phase.countsLines = false)
    (bytes : Nat) : r.countLine bytes = r := by
  simp [countLine, hcounts]

theorem moves_headLine {r : ResponseReader} {buffer : Bytes}
    {next : String → ResponseReader → Bytes → Step} (hcounts : r.phase.countsLines = true)
    (hnext : ∀ line text rest, r.headLine? buffer = some line → Utf8.decode? line = some text →
      (r.pastLine line).headBytes ≤ maxHeadBytes →
      Moves r buffer (next text (r.pastLine line) rest)) :
    Moves r buffer (r.withLine buffer next) := by
  unfold withLine
  split
  · next hnone =>
    have hline : r.headLine? buffer = none := by rw [headLine?, if_pos hcounts, hnone]; rfl
    split
    · exact .refuses hline
    · next hfit => exact .waits hline (by omega)
  · next line rest hsome =>
    have hline := headLine?_of_line hcounts hsome
    dsimp only
    rw [countLine_of_counts hcounts]
    split
    · next hlarge =>
      refine .refusesLine hline fun hfit => ?_
      simp only [Bool.and_eq_true, decide_eq_true_eq] at hlarge
      exact absurd hfit (Nat.not_le.2 hlarge.2)
    · next hfit =>
      split
      · next htext => exact .refusesLine hline fun _ => .inr (by rw [fieldOf?, htext]; rfl)
      · next text htext =>
        have hphase : (r.pastLine line).phase.countsLines = true := hcounts
        refine hnext line text rest hline htext ?_
        simpa [hphase] using hfit

theorem eq_nil_of_decode? {line : Bytes} {text : String} (h : Utf8.decode? line = some text)
    (hempty : text.isEmpty = true) : line = [] := by
  obtain rfl := Utf8.decode?_eq_some_iff.1 h
  rw [String.isEmpty_iff.1 hempty]
  rfl

theorem moves_field {r : ResponseReader} {buffer line rest : Bytes} {text : String}
    (hphase : r.phase = .headers ∨ r.phase = .trailers) (hline : r.headLine? buffer = some line)
    (htext : Utf8.decode? line = some text) :
    Moves r buffer (match readField text with
      | .error e => .answer (.error e) (r.pastLine line) rest
      | .ok field => .again { r.pastLine line with headers := r.headers ++ [field] } rest) := by
  have hfield : fieldOf? line = (readField text).toOption := by rw [fieldOf?, htext]; rfl
  cases hread : readField text with
  | error e => exact .refusesLine hline fun _ => .inr (by rw [hfield, hread]; rfl)
  | ok field => exact .readsField hphase hline (by rw [hfield, hread]; rfl)

/-- What stands behind the head: no body, one that begins in a phase, or none that could be read
because of the length that is stated. -/
inductive Starts (r : ResponseReader) (rest : Bytes) : Step → Prop
  | ends (hends : isBodiless r.status = false →
      isChunked r.headers = false ∧ statedLength r.headers = .ok (some 0)) :
      Starts r rest (.answer (.ok (some r.response)) {} rest)
  | opens {phase : Phase} (hbody : isBodiless r.status = false) (hopens : Opens r.headers phase) :
      Starts r rest (.again { r with phase } rest)
  | noLength {e : ReadError} (hbody : isBodiless r.status = false)
      (hchunked : isChunked r.headers = false) (hlength : statedLength r.headers = .error e) :
      Starts r rest (.answer (.error e) r rest)
  | tooLong {length : Nat} (hbody : isBodiless r.status = false)
      (hchunked : isChunked r.headers = false)
      (hlength : statedLength r.headers = .ok (some length)) (hlong : maxBodyBytes < length) :
      Starts r rest (.answer (.error .bodyTooLarge) r rest)

theorem starts_startBody (r : ResponseReader) (rest : Bytes) :
    Starts r rest (r.startBody rest) := by
  unfold startBody
  split
  · next hbodiless => exact .ends fun hbody => absurd hbodiless (by simp [hbody])
  · next hbody =>
    have hbody : isBodiless r.status = false := eq_false_of_ne_true hbody
    split
    · next hchunked => exact .opens hbody (.chunked hchunked)
    · next hchunked =>
      have hchunked : isChunked r.headers = false := eq_false_of_ne_true hchunked
      split
      · next e hlength => exact .noLength hbody hchunked hlength
      · next hlength => exact .opens hbody (.untilClose hchunked hlength)
      · next hlength => exact .ends fun _ => ⟨hchunked, hlength⟩
      · next length hne hlength =>
        split
        · next hlong => exact .tooLong hbody hchunked hlength hlong
        · next hle =>
          exact .opens hbody
            (.sized hchunked hlength (Nat.pos_of_ne_zero hne) (Nat.not_lt.1 hle))

/-- The empty line behind the fields opens the body, ends the response, or is refused. -/
theorem moves_startBody {r : ResponseReader} {buffer : Bytes} (hphase : r.phase = .headers)
    (hline : r.headLine? buffer = some []) (hfit : (r.pastLine []).headBytes ≤ maxHeadBytes)
    (rest : Bytes) : Moves r buffer ((r.pastLine []).startBody rest) := by
  have hstarts := starts_startBody (r.pastLine []) rest
  generalize (r.pastLine []).startBody rest = step at hstarts
  cases hstarts with
  | ends hends => exact .endsHead hphase hline hfit hends
  | opens hbody hopens => exact .opensBody hphase hline hfit hbody hopens
  | noLength | tooLong => exact .refusesLine hline fun _ => .inr rfl

/-- **What a step does** to a reader that is within its limits. -/
theorem moves_step {r : ResponseReader} (h : r.WithinLimits) (buffer : Bytes) :
    Moves r buffer (r.step buffer) := by
  unfold step
  cases hphase : r.phase with
  | statusLine =>
    refine moves_headLine (by rw [hphase]; rfl) fun line text rest hline htext _ => ?_
    split
    · next hempty =>
      obtain rfl := eq_nil_of_decode? htext hempty
      exact .skipsLine hphase hline
    · split
      · exact .refusesLine hline fun _ => .inl hphase
      · next hread => exact .readsStatus hphase hline htext hread
  | headers =>
    refine moves_headLine (by rw [hphase]; rfl) fun line text rest hline htext hfit => ?_
    split
    · next hempty =>
      obtain rfl := eq_nil_of_decode? htext hempty
      exact moves_startBody hphase hline hfit rest
    · exact moves_field (.inl hphase) hline htext
  | body length =>
    have hlength := (h.length_le length hphase).1
    dsimp only
    split
    · next hdone => exact .completes hphase (by simpa using hdone)
    · next hshort =>
      have hall : buffer.length < length - r.body.size := by
        simp only [size_addBody, List.splitAt_eq, List.length_take] at hshort
        omega
      rw [List.splitAt_eq, List.take_of_length_le hall.le, List.drop_of_length_le hall.le]
      exact .gathers hphase (by omega)
  | untilClose =>
    dsimp only
    split
    · exact .refuses (headLine?_of_not_counts (by rw [hphase]; rfl) buffer)
    · next hfit => exact .gathersRest hphase (Nat.not_lt.1 hfit)
  | chunkSize =>
    have hcounts : r.phase.countsLines = false := by rw [hphase]; rfl
    have hline := headLine?_of_not_counts hcounts buffer
    dsimp only [withLine]
    split
    · split
      · exact .refuses hline
      · exact .waits hline (by omega)
    · simp only [countLine_of_not_counts hcounts, hcounts, Bool.false_and, Bool.false_eq_true,
        if_false]
      split
      · exact .refuses hline
      · split
        · exact .refuses hline
        · split
          · exact .refuses hline
          · next hfit => exact .readsSize hphase (Nat.not_lt.1 hfit)
  | chunkData remaining =>
    simp only [List.splitAt_eq]
    split
    · next hshort =>
      have hall : buffer.length < remaining := by
        rw [List.length_take] at hshort
        omega
      rw [List.take_of_length_le hall.le, List.drop_of_length_le hall.le]
      exact .gathersChunk hphase hall
    · next hdone => exact .completesChunk hphase (by rw [List.length_take] at hdone ⊢; omega)
  | chunkEnd =>
    have hline := headLine?_of_not_counts (by rw [hphase]; rfl) buffer
    dsimp only
    split
    · exact .leavesChunk hphase
    · exact .refuses hline
    · next hcrlf htwo =>
      refine .waits hline ?_
      rcases buffer with _ | ⟨a, _ | ⟨b, rest⟩⟩
      · exact Nat.zero_le _
      · exact Nat.le_of_ble_eq_true rfl
      · exact absurd rfl (htwo a b rest)
  | trailers =>
    refine moves_headLine (by rw [hphase]; rfl) fun line text rest hline htext hfit => ?_
    split
    · next hempty =>
      obtain rfl := eq_nil_of_decode? htext hempty
      exact .endsTrailers hphase hline hfit
    · exact moves_field (.inr hphase) hline htext

/-! ### What is kept -/

def Step.reader : Step → ResponseReader
  | .again r _ | .answer _ r _ => r

theorem counts_of_headLine? {r : ResponseReader} {buffer line : Bytes}
    (h : r.headLine? buffer = some line) : r.phase.countsLines = true := by
  unfold headLine? at h
  split at h
  · assumption
  · nomatch h

theorem withinLimits_new : ({} : ResponseReader).WithinLimits where
  body_empty := fun _ => rfl
  body_le := Nat.zero_le _
  length_le := nofun
  chunk_le := nofun
  head_le := nofun

/-- Between two lines of the head, only what stands on them has changed. -/
theorem WithinLimits.of_counts {r r' : ResponseReader} (h : r.WithinLimits)
    (hcounts : r.phase.countsLines = true) (hphase : r'.phase = r.phase)
    (hbody : r'.body = r.body) : r'.WithinLimits where
  body_empty := by rw [hphase, hbody]; exact h.body_empty
  body_le := by rw [hbody]; exact h.body_le
  length_le := by rw [hphase, hbody]; exact h.length_le
  chunk_le := by rw [hphase, hbody]; exact h.chunk_le
  head_le := by rw [hphase, hcounts]; nofun

/-- **The limits are kept** by every step, whether it goes on, waits or refuses. -/
theorem WithinLimits.step {r : ResponseReader} (h : r.WithinLimits) (buffer : Bytes) :
    (r.step buffer).reader.WithinLimits := by
  have hmoves := moves_step h buffer
  generalize r.step buffer = step at hmoves
  cases hmoves with
  | refuses | waits => exact h
  | refusesLine hline | skipsLine _ hline | readsField _ hline =>
    exact h.of_counts (counts_of_headLine? hline) rfl rfl
  | readsStatus hphase =>
    exact {
      body_empty := fun _ => h.body_empty (.inl hphase)
      body_le := h.body_le
      length_le := nofun
      chunk_le := nofun
      head_le := nofun }
  | opensBody hphase hline hfit hbody hopens =>
    have hempty := h.body_empty (.inr hphase)
    refine ⟨fun _ => hempty, h.body_le, fun length heq => ?_, fun remaining heq => ?_,
      fun _ => hfit⟩
    · cases hopens with
      | sized _ _ hpos hle =>
        obtain rfl := Phase.body.inj heq
        exact ⟨by simpa [Step.reader, pastLine, hempty] using hpos, hle⟩
      | chunked => nomatch heq
      | untilClose => nomatch heq
    · cases hopens <;> nomatch heq
  | endsHead | completes | endsTrailers => exact withinLimits_new
  | gathers hphase hshort =>
    have hhead := h.head_le (by rw [hphase]; rfl)
    have hle := (h.length_le _ hphase).2
    refine ⟨?_, ?_, fun other heq => ?_, ?_, fun _ => hhead⟩
    · simp [Step.reader, hphase]
    · simp only [Step.reader, size_addBody]
      omega
    · obtain rfl := Phase.body.inj (hphase.symm.trans heq)
      simpa [Step.reader] using ⟨hshort, hle⟩
    · simp [Step.reader, hphase]
  | gathersRest hphase hfit =>
    refine ⟨?_, ?_, ?_, ?_, fun _ => h.head_le (by rw [hphase]; rfl)⟩
    · simp [Step.reader, hphase]
    · simpa [Step.reader] using hfit
    · simp [Step.reader, hphase]
    · simp [Step.reader, hphase]
  | @readsSize size rest hphase hfit =>
    have hhead := h.head_le (by rw [hphase]; rfl)
    by_cases hzero : size = 0
    · simp only [Step.reader, hzero, if_true]
      exact ⟨by simp, h.body_le, nofun, nofun, fun _ => hhead⟩
    · simp only [Step.reader, hzero, if_false]
      refine ⟨by simp, h.body_le, nofun, fun remaining heq => ?_, fun _ => hhead⟩
      obtain rfl := Phase.chunkData.inj heq
      exact ⟨Nat.pos_of_ne_zero hzero, hfit⟩
  | gathersChunk hphase hshort =>
    have hroom := (h.chunk_le _ hphase).2
    refine ⟨by simp [Step.reader], ?_, nofun, fun remaining heq => ?_,
      fun _ => h.head_le (by rw [hphase]; rfl)⟩
    · simp only [Step.reader, size_addBody]
      omega
    · obtain rfl := Phase.chunkData.inj heq
      simp only [Step.reader, size_addBody]
      omega
  | completesChunk hphase htaken =>
    have hroom := (h.chunk_le _ hphase).2
    refine ⟨by simp [Step.reader], ?_, nofun, nofun, fun _ => h.head_le (by rw [hphase]; rfl)⟩
    simp only [Step.reader, size_addBody]
    omega
  | leavesChunk hphase =>
    exact ⟨by simp [Step.reader], h.body_le, nofun, nofun, fun _ => h.head_le (by rw [hphase]; rfl)⟩

/-- What a step that waits leaves unread is no longer than a head. -/
theorem Moves.length_le {r r' : ResponseReader} {buffer rest : Bytes}
    (h : Moves r buffer (.answer (.ok none) r' rest)) : rest.length ≤ maxHeadBytes := by
  cases h with
  | waits _ hfit => exact hfit
  | gathers | gathersRest | gathersChunk => exact Nat.zero_le _

theorem length_body_response (r : ResponseReader) : r.response.body.length = r.body.size := by
  simp [response]

theorem Moves.length_body_le {r r' : ResponseReader} {buffer rest : Bytes} {response : Response}
    (h : Moves r buffer (.answer (.ok (some response)) r' rest)) (hlimits : r.WithinLimits) :
    response.body.length ≤ maxBodyBytes := by
  cases h with
  | endsHead | endsTrailers => rw [length_body_response]; exact hlimits.body_le
  | completes hphase htaken =>
    rw [length_body_response, size_addBody, htaken]
    exact (hlimits.length_le _ hphase).2

end WebClient.Http.ResponseReader
